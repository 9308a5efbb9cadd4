import RulesElide.IncrementalWorker.History
import RulesElide.Rules.Targets

/-!
# Incremental builds

An incremental Kotlin target is compiled by the incremental worker, which decides by the
arguments and the inputs of a request whether it uses the compiler's state again.  Here the
arguments are those that `run_kotlinc` adds: `signature_of_sent_iff` says which edits reset the
state of a target, and `incremental_builds` what this means for the runs of a worker.
-/

namespace RulesElide.CompileCommon

open IncrementalWorker WorkerProtocol

/-! ## Arguments that are no options -/

/-- The path of a file: it is no option. -/
def IsPath (path : String) : Prop :=
  path ≠ "" ∧ startsWith path "-" = false

instance : DecidablePred IsPath := fun _ => inferInstanceAs (Decidable (_ ∧ _))

/-- What makes `signature` conservative. -/
def isConservative (arg : String) : Bool :=
  loadsPlugin arg || startsWith arg "-Xfriend-paths"

theorem startsWith_trans {value text start : String} (h : startsWith value text = true)
    (hstart : startsWith text start = true) : startsWith value start = true := by
  rw [startsWith_iff] at *
  exact hstart.trans h

/-- What an argument begins with that makes `signature` conservative. -/
def conservativeTexts : List String :=
  ["-Xplugin", "-Xcompiler-plugin", "-P", "--plugins", "-Xfriend-paths"]

theorem exists_of_isConservative {arg : String} (h : isConservative arg = true) :
    ∃ text ∈ conservativeTexts, startsWith arg text = true := by
  simp only [isConservative, loadsPlugin, Bool.or_eq_true, beq_iff_eq] at h
  rcases h with (((((h | h) | rfl) | h) | rfl) | h) | h
  · exact ⟨_, by decide, h⟩
  · exact ⟨_, by decide, h⟩
  · exact ⟨"-P", by decide, by decide⟩
  · exact ⟨"-P", by decide, startsWith_trans h (by decide)⟩
  · exact ⟨"--plugins", by decide, by decide⟩
  · exact ⟨"--plugins", by decide, startsWith_trans h (by decide)⟩
  · exact ⟨_, by decide, h⟩

/-- An option that none of these texts begins with, and that begins none, takes any value. -/
theorem not_isConservative_append {option : String}
    (h : ∀ text ∈ conservativeTexts,
      startsWith option text = false ∧ startsWith text option = false)
    (value : String) : isConservative (option ++ value) = false := by
  by_contra hnot
  obtain ⟨text, htext, hstart⟩ := exists_of_isConservative (Bool.not_eq_false _ ▸ hnot)
  obtain ⟨hlonger, hshorter⟩ := h text htext
  rcases startsWith_of_append hstart with hoption | htext
  · rw [hlonger] at hoption
    cases hoption
  · rw [hshorter] at htext
    cases htext

theorem dash_of_isConservative {arg : String} (h : isConservative arg = true) :
    startsWith arg "-" = true := by
  obtain ⟨text, htext, hstart⟩ := exists_of_isConservative h
  exact startsWith_trans hstart
    ((by decide : ∀ text ∈ conservativeTexts, startsWith text "-" = true)
    text htext)

section

variable {path : String}

theorem IsPath.isConservative (h : IsPath path) : isConservative path = false := by
  by_contra hnot
  have hdash := dash_of_isConservative (Bool.not_eq_false _ ▸ hnot)
  rw [h.2] at hdash
  cases hdash

theorem IsPath.ne_option (h : IsPath path) {option : String}
    (hoption : startsWith option "-" = true) :
    path ≠ option := by
  rintro rfl
  rw [h.2] at hoption
  cases hoption

theorem IsPath.append (h : IsPath path) (rest : String) : IsPath (path ++ rest) := by
  refine ⟨fun hnil => h.1 (String.append_eq_empty_iff.mp hnil).1, ?_⟩
  by_contra hdash
  rw [Bool.not_eq_false] at hdash
  rcases startsWith_of_append hdash with hpath | hshort
  · rw [h.2] at hpath
    cases hpath
  · rw [startsWith_iff] at hshort
    rcases List.prefix_concat_iff.mp
      (show path.toList <+: [] ++ ['-'] from hshort) with hsame | hnil
    · have hself : path = "-" := String.toList_injective hsame
      have hdash := h.2
      rw [hself] at hdash
      exact absurd hdash (by decide)
    · exact h.1 (String.toList_eq_nil_iff.mp (List.prefix_nil.mp hnil))

theorem IsPath.intercalate {separator : String} {paths : List String} (hne : paths ≠ [])
    (h : ∀ path ∈ paths, IsPath path) : IsPath (separator.intercalate paths) := by
  cases paths with
  | nil => exact absurd rfl hne
  | cons first rest =>
      have hfirst := h first List.mem_cons_self
      cases rest with
      | nil => rwa [String.intercalate_singleton]
      | cons second rest =>
          rw [String.intercalate_cons_cons, String.append_assoc]
          exact hfirst.append _

end

/-! ## The command line -/

/-- Conditions on a target and on the machine of the worker: nothing that the rule puts on the
command line as a path can be taken for an option, and no jar for two. -/
structure Ordinary (ctx : Context) (platform : Platform) : Prop where
  /-- `allow_files = [".kt", ".java"]`. -/
  sources : ∀ file ∈ ctx.srcs, endsWith file.path ".kt" = true ∨ endsWith file.path ".java" = true
  sourcePaths : ∀ file ∈ ctx.srcs, IsPath file.path
  dirname : IsPath ctx.dirname
  separator : ctx.hostPathSeparator = platform.pathSeparator.toString
  jarPaths : ∀ jar ∈ ctx.classpath ++ ctx.pluginClasspath ++ friendPathStrs ctx.toTarget, IsPath jar
  jarNames : ∀ jar ∈ ctx.classpath ++ ctx.pluginClasspath ++ friendPathStrs ctx.toTarget,
    platform.pathSeparator ∉ jar.toList

namespace Context

variable (ctx : Context)

/-- What stands in front of `--`. -/
def elideArgs (jar : File) : List String :=
  CompileCommon.toolArgs ctx.toTarget jar ++ builtinPluginArgs ctx.toTarget

/-- What stands behind the jar. -/
def compilerArgs : List String :=
  CompileCommon.kotlincArgs ctx.toTarget ++ ctx.javacOpts.map ("-Xjavac-arguments=" ++ ·) ++
    ctx.srcPaths

/-- `-module-name`. -/
def moduleArgs : List String :=
  if ctx.moduleName = "" then [] else ["-module-name", ctx.moduleName]

/-- The class path of the Kotlin compilation. -/
def kotlincClasspath : List String :=
  ctx.classpath ++ ctx.pluginClasspath ++ friendPathStrs ctx.toTarget

/-- The compiler may read what is in no class signature, for all that the worker can tell. -/
def readsMore : Bool :=
  !ctx.builtinPlugins.isEmpty || !(friendPathStrs ctx.toTarget).isEmpty ||
    (ctx.plugins.any fun plugin => !plugin.runtimeJars.isEmpty) ||
      (ctx.moduleName :: ctx.kotlincOpts).any isConservative

/-- The jars on whose changes the compiler keeps its own account: those on the class path, and
those the options put there. -/
def snapshotJars (platform : Platform) : List String :=
  if ctx.readsMore then []
  else ctx.kotlincClasspath.filter (endsWith · ".jar") ++
    scanClasspath platform (ctx.moduleArgs ++ ctx.kotlincOpts ++
      ctx.javacOpts.map ("-Xjavac-arguments=" ++ ·) ++ ctx.srcPaths)

/-- A new content of this file makes the worker start afresh. -/
def Resets (platform : Platform) (path : String) : Prop :=
  endsWith path ".kt" = false ∧ endsWith path ".java" = false ∧ path ∉ ctx.snapshotJars platform

end Context

/-- A request to the worker for the Kotlin compilation of an incremental target.  Its inputs may be
any with distinct paths: Bazel also lists the parameter file and the files of the worker itself. -/
structure KotlincRequest (platform : Platform) (ctx : Context) (jar : File)
    (request : WorkRequest) : Prop where
  ordinary : Ordinary ctx platform
  incremental : incremental ctx.toTarget = true
  compiles : ctx.ktJar ctx.outputJar = some jar
  arguments : request.arguments = (ctx.elideKotlinc jar).toolArgs.flatMap Arg.strings
  distinctPaths : DistinctPaths request
  /-- Bazel sends digests in hexadecimal. -/
  hexadecimal : ∀ input ∈ request.inputs, ∀ byte ∈ input.digest, byte ∈ getBytes "0123456789abcdef"

variable {platform : Platform} {ctx ctx' : Context} {jar jar' : File}
  {request first second : WorkRequest}

theorem fusedAbi_of_incremental (h : incremental ctx.toTarget = true) :
    fusedAbi ctx.toTarget = false := by
  simp [fusedAbi, h]

/-- The jar comes right after `--`. -/
theorem strings_elideKotlinc (h : incremental ctx.toTarget = true) :
    (ctx.elideKotlinc jar).toolArgs.flatMap Arg.strings =
      ctx.elideArgs jar ++ "--" :: ("-d" :: jar.path :: ctx.compilerArgs) := by
  have harguments : (ctx.elideKotlinc jar).toolArgs.flatMap Arg.strings =
      (kotlincAction ctx.toTarget jar).toolArgs := congrArg Action.toolArgs elide_elideKotlinc
  rw [harguments, kotlincAction]
  simp [runElideCompile, fusedAbi_of_incremental h, Context.elideArgs, Context.compilerArgs,
    Context.srcPaths, List.append_assoc]

/-- Whatever stands in front of `--`, by what it can be. -/
theorem mem_elideArgs (h : Ordinary ctx platform) {jar : File} (hjar : jar.dirname = ctx.dirname)
    {arg : String} (harg : arg ∈ ctx.elideArgs jar) :
    arg = "--jdeps" ∨ arg = "--unused-inputs" ∨ IsPath arg ∨
      (∃ label, arg = "--target-label=" ++ label) ∨
      (ctx.builtinPlugins ≠ [] ∧ ∃ names, arg = "--plugins=" ++ names) := by
  -- the files of the tool lie beside the jar
  have hplain : ∀ name, IsPath (jar.sibling name).path := by
    intro name
    have hdirname := hjar ▸ h.dirname
    rw [File.path, File.sibling, if_neg hdirname.1, String.append_assoc]
    exact hdirname.append _
  rcases List.mem_append.mp harg with htool | hbuiltin
  · unfold CompileCommon.toolArgs metadata at htool
    dsimp only at htool
    cases hjdeps : ctx.settings.emitJdeps <;>
      cases hunused : ctx.settings.pruneUnusedInputs && !isOpaque ctx.toTarget <;>
        simp only [hjdeps, hunused, if_true, if_false, Bool.false_eq_true, List.append_nil,
          List.nil_append, List.mem_append, List.mem_cons, List.not_mem_nil, or_false] at htool
    · rcases htool with rfl | rfl
      · simp
      · simp [hplain]
    · rcases htool with rfl | rfl | rfl
      · simp
      · simp [hplain]
      · exact .inr (.inr (.inr (.inl ⟨_, rfl⟩)))
    · rcases htool with (rfl | rfl | rfl) | rfl | rfl
      · simp
      · simp [hplain]
      · exact .inr (.inr (.inr (.inl ⟨_, rfl⟩)))
      · simp
      · simp [hplain]
  · unfold builtinPluginArgs at hbuiltin
    split at hbuiltin
    · exact absurd hbuiltin List.not_mem_nil
    · rename_i hsome
      exact .inr (.inr (.inr (.inr ⟨hsome, _, List.mem_singleton.mp hbuiltin⟩)))

theorem not_mem_elideArgs (h : Ordinary ctx platform) (hjar : jar.dirname = ctx.dirname) :
    "--" ∉ ctx.elideArgs jar ∧ "-d" ∉ ctx.elideArgs jar := by
  have hoption : ∀ option ∈ ["--", "-d"], option ∉ ctx.elideArgs jar := by
    intro option hoption hmem
    have hfixed : startsWith option "-" = true ∧ option ≠ "--jdeps" ∧ option ≠ "--unused-inputs" ∧
        startsWith option "--target-label=" = false ∧ startsWith option "--plugins=" = false := by
      rcases List.mem_pair.mp hoption with rfl | rfl
      · decide
      · decide
    obtain ⟨hdash, hjdeps, hunused, hlabel, hplugins⟩ := hfixed
    -- no form that an argument has is one of the two options
    rcases mem_elideArgs h hjar hmem with rfl | rfl | hplain | ⟨label, rfl⟩ | ⟨-, names, rfl⟩
    · exact hjdeps rfl
    · exact hunused rfl
    · exact hplain.ne_option hdash rfl
    · rw [startsWith_append] at hlabel
      cases hlabel
    · rw [startsWith_append] at hplugins
      cases hplugins
  exact ⟨hoption _ (by decide), hoption _ (by decide)⟩

theorem KotlincRequest.dirname (h : KotlincRequest platform ctx jar request) :
    jar.dirname = ctx.dirname := by
  have hjar := h.compiles
  unfold Context.ktJar at hjar
  split at hjar
  · obtain rfl := Option.some.inj hjar
    split <;> rfl
  · cases hjar

theorem KotlincRequest.plain_jar (h : KotlincRequest platform ctx jar request) :
    IsPath jar.path := by
  have hdirname := h.dirname ▸ h.ordinary.dirname
  rw [File.path, if_neg hdirname.1, String.append_assoc]
  exact hdirname.append _

theorem KotlincRequest.arguments_eq (h : KotlincRequest platform ctx jar request) :
    request.arguments = ctx.elideArgs jar ++ "--" :: ("-d" :: jar.path :: ctx.compilerArgs) := by
  rw [h.arguments, strings_elideKotlinc h.incremental]

theorem KotlincRequest.splits (h : KotlincRequest platform ctx jar request) :
    Splits request.arguments (ctx.elideArgs jar) [] jar.path ctx.compilerArgs where
  args_eq := h.arguments_eq
  separator := (not_mem_elideArgs h.ordinary h.dirname).1
  early := (not_mem_elideArgs h.ordinary h.dirname).2
  destination := List.not_mem_nil

/-! ## What the worker makes of it -/

theorem elideArgs_conservative (h : Ordinary ctx platform) (hjar : jar.dirname = ctx.dirname) :
    (ctx.elideArgs jar).any isConservative = !ctx.builtinPlugins.isEmpty := by
  -- only the list of builtin plugins is a conservative argument
  cases hbuiltin : ctx.builtinPlugins with
  | nil =>
      rw [List.any_eq_false.mpr]
      · rfl
      · intro arg harg
        rw [Bool.not_eq_true]
        rcases mem_elideArgs h hjar harg with rfl | rfl | hplain | ⟨label, rfl⟩ | ⟨hsome, -⟩
        · decide
        · decide
        · exact hplain.isConservative
        · exact not_isConservative_append (by decide) label
        · exact absurd hbuiltin hsome
  | cons plugin plugins =>
      have hmem : "--plugins=" ++ ",".intercalate ctx.builtinPlugins ∈ ctx.elideArgs jar := by
        apply List.mem_append_right
        rw [builtinPluginArgs, if_neg (by rw [hbuiltin]; exact List.cons_ne_nil _ _)]
        exact List.mem_singleton_self _
      rw [List.any_eq_true.mpr ⟨_, hmem, ?_⟩]
      · rfl
      · simp [isConservative, loadsPlugin, startsWith_append]

theorem addJoined_conservative (h : Ordinary ctx platform) :
    (addJoined "-classpath" ctx.hostPathSeparator (ctx.depsetOrder.toList ctx.kotlincClasspath)).any
      isConservative = false := by
  unfold addJoined
  split
  · rfl
  · rename_i hsome
    have hjoined :
      IsPath (ctx.hostPathSeparator.intercalate (ctx.depsetOrder.toList ctx.kotlincClasspath)) :=
      IsPath.intercalate hsome fun jar hjar => h.jarPaths jar (ctx.depsetOrder.mem_toList.mp hjar)
    have hoption : isConservative "-classpath" = false := by decide
    simp [hoption, hjoined.isConservative]

theorem compilerArgs_conservative (h : Ordinary ctx platform) :
    ctx.compilerArgs.any isConservative =
      (!(friendPathStrs ctx.toTarget).isEmpty ||
        (ctx.plugins.any fun plugin => !plugin.runtimeJars.isEmpty) ||
          (ctx.moduleName :: ctx.kotlincOpts).any isConservative) := by
  -- group by group, in the order in which the command line lists them
  have hmodule : (if ctx.moduleName = "" then [] else ["-module-name", ctx.moduleName]).any
      isConservative = isConservative ctx.moduleName := by
    split
    · rename_i hnone
      rw [hnone]
      decide
    · have hoption : isConservative "-module-name" = false := by decide
      simp [hoption]
  have hfriends : (if friendPathStrs ctx.toTarget = [] then []
      else ["-Xfriend-paths=" ++ ",".intercalate (friendPathStrs ctx.toTarget)]).any
        isConservative = !(friendPathStrs ctx.toTarget).isEmpty := by
    split
    · rename_i hnone
      rw [hnone]
      rfl
    · rename_i hsome
      have hstart : startsWith ("-Xfriend-paths=" ++ ",".intercalate (friendPathStrs ctx.toTarget))
          "-Xfriend-paths" = true := startsWith_trans (startsWith_append _ _) (by decide)
      simp [isConservative, hstart, hsome]
  have hplugins : (ctx.plugins.flatMap fun plugin => plugin.runtimeJars.map ("-Xplugin=" ++ ·)).any
      isConservative = ctx.plugins.any fun plugin => !plugin.runtimeJars.isEmpty := by
    have hoption : ∀ jar, isConservative ("-Xplugin=" ++ jar) = true := by
      intro jar
      have hstart : startsWith ("-Xplugin=" ++ jar) "-Xplugin" = true :=
        startsWith_trans (startsWith_append _ _) (by decide)
      simp [isConservative, loadsPlugin, hstart]
    rw [List.any_flatMap]
    congr 1
    funext plugin
    cases plugin.runtimeJars <;> simp [hoption]
  have hjavac : (ctx.javacOpts.map ("-Xjavac-arguments=" ++ ·)).any isConservative = false := by
    rw [List.any_eq_false]
    intro arg harg
    obtain ⟨opt, -, rfl⟩ := List.mem_map.mp harg
    rw [not_isConservative_append (by decide)]
    decide
  have hsrcs : ctx.srcPaths.any isConservative = false := by
    rw [List.any_eq_false]
    intro arg harg
    obtain ⟨file, hfile, rfl⟩ := List.mem_map.mp harg
    rw [(h.sourcePaths file hfile).isConservative]
    decide
  have hclasspath := addJoined_conservative h
  unfold Context.kotlincClasspath at hclasspath
  unfold Context.compilerArgs kotlincArgs
  simp only [List.any_append, hclasspath, hmodule, hfriends, hplugins, hjavac, hsrcs, List.any_cons,
    Bool.false_or, Bool.or_false]
  cases isConservative ctx.moduleName <;> cases (friendPathStrs ctx.toTarget).isEmpty <;> simp

theorem KotlincRequest.conservative_eq (h : KotlincRequest platform ctx jar request) :
    conservative request.arguments = ctx.readsMore := by
  have hfixed : isConservative "--" = false ∧ isConservative "-d" = false := by decide
  have hconservative : conservative request.arguments = request.arguments.any isConservative :=
    CompileCommon.conservative_eq request.arguments
  rw [hconservative, h.arguments_eq, List.any_append, List.any_cons, List.any_cons, List.any_cons,
    elideArgs_conservative h.ordinary h.dirname, compilerArgs_conservative h.ordinary,
    hfixed.1, hfixed.2, h.plain_jar.isConservative]
  simp only [Context.readsMore, Bool.false_or, Bool.or_assoc]

/-! ## The class path -/

theorem scanClasspath_cons {option : String} (hclasspath : option ≠ "-classpath")
    (hcp : option ≠ "-cp")
    (rest : List String) :
    scanClasspath platform (option :: rest) = scanClasspath platform rest := by
  cases rest with
  | nil => rfl
  | cons value rest =>
      rw [scanClasspath, if_neg]
      rintro (h | h)
      · exact hclasspath h
      · exact hcp h

/-- Dropping values that are not kept changes nothing. -/
theorem filter_rdropWhile {α : Type*} {keep drop : α → Bool}
    (h : ∀ value, drop value → ¬ keep value)
    (values : List α) : (values.rdropWhile drop).filter keep = values.filter keep := by
  induction values using List.reverseRecOn with
  | nil => simp
  | append_singleton values value ih =>
      by_cases hdrop : drop value
      · rw [List.rdropWhile_concat_pos _ _ _ hdrop, ih, List.filter_append,
          List.filter_cons_of_neg (h value hdrop), List.filter_nil, List.append_nil]
      · rw [List.rdropWhile_concat_neg _ _ _ hdrop]

/-- The jars among joined values without a separator. -/
theorem filter_split_intercalate {separator : Char} {values : List String} (hne : values ≠ [])
    (h : ∀ value ∈ values, separator ∉ value.toList) :
    (split separator (separator.toString.intercalate values)).filter (endsWith · ".jar") =
      values.filter (endsWith · ".jar") := by
  have hparts := parts_intercalate h hne
  unfold parts at hparts
  unfold split
  split
  · rw [hparts]
    apply filter_rdropWhile
    intro value hvalue
    obtain rfl := of_decide_eq_true hvalue
    decide
  · rename_i hnone
    rw [List.splitOn_eq_singleton hnone] at hparts
    simp only [List.map_cons, List.map_nil, String.ofList_toList] at hparts
    rw [hparts]

theorem KotlincRequest.afterSeparator_eq (h : KotlincRequest platform ctx jar request) :
    afterSeparator request.arguments = "-d" :: jar.path :: ctx.compilerArgs := by
  have hfront : ∀ arg ∈ ctx.elideArgs jar, decide (arg ≠ "--") = true := by
    intro arg harg
    exact decide_eq_true fun hsame => h.splits.separator (hsame ▸ harg)
  rw [afterSeparator, h.arguments_eq, List.dropWhile_append_of_pos hfront,
    List.dropWhile_cons_of_neg (by simp)]
  rfl

/-- Without plugins and friends, what stands behind the jar. -/
theorem compilerArgs_of_not_readsMore (h : ctx.readsMore = false) :
    ctx.compilerArgs =
      addJoined "-classpath" ctx.hostPathSeparator (ctx.depsetOrder.toList ctx.kotlincClasspath) ++
      (ctx.moduleArgs ++ ctx.kotlincOpts ++ ctx.javacOpts.map ("-Xjavac-arguments=" ++ ·) ++
        ctx.srcPaths) := by
  simp only [Context.readsMore, Bool.or_eq_false_iff, Bool.not_eq_false', List.isEmpty_iff] at h
  obtain ⟨⟨⟨-, hfriends⟩, hplugins⟩, -⟩ := h
  have hnone :
    (ctx.plugins.flatMap fun plugin => plugin.runtimeJars.map ("-Xplugin=" ++ ·)) = [] := by
    rw [List.flatMap_eq_nil_iff]
    intro plugin hplugin
    have hjars := List.any_eq_false.mp hplugins plugin hplugin
    rw [Bool.not_eq_true, Bool.not_eq_false', List.isEmpty_iff] at hjars
    rw [hjars, List.map_nil]
  unfold Context.compilerArgs kotlincArgs
  dsimp only
  rw [hnone, hfriends, if_pos rfl]
  simp [Context.moduleArgs, Context.kotlincClasspath, hfriends, List.append_assoc]

/-- What the worker finds on the class path of a target. -/
theorem KotlincRequest.mem_ordinaryClasspath (h : KotlincRequest platform ctx jar request)
    {path : String} :
    path ∈ ordinaryClasspath platform request.arguments ↔ path ∈ ctx.snapshotJars platform := by
  have hjar : scanClasspath platform ("-d" :: jar.path :: ctx.compilerArgs) =
      scanClasspath platform ctx.compilerArgs := by
    rw [scanClasspath_cons (by decide) (by decide), scanClasspath_cons]
    · exact h.plain_jar.ne_option (by decide)
    · exact h.plain_jar.ne_option (by decide)
  unfold ordinaryClasspath Context.snapshotJars
  rw [h.conservative_eq, h.afterSeparator_eq, hjar]
  split
  · rfl
  · rename_i hplain
    rw [Bool.not_eq_true] at hplain
    rw [compilerArgs_of_not_readsMore hplain, List.mem_append]
    unfold addJoined
    split
    · rename_i hnone
      have hempty : path ∉ ctx.kotlincClasspath.filter (endsWith · ".jar") := by
        intro hpath
        have hmem := ctx.depsetOrder.mem_toList.mpr (List.mem_filter.mp hpath).1
        rw [hnone] at hmem
        exact absurd hmem List.not_mem_nil
      rw [List.nil_append, or_iff_right hempty]
    · rename_i hsome
      -- no jar has the separator in its name, so splitting gives the jars back
      have hnames : ∀ jar ∈ ctx.depsetOrder.toList ctx.kotlincClasspath,
        platform.pathSeparator ∉ jar.toList :=
        fun jar hjar => h.ordinary.jarNames jar (ctx.depsetOrder.mem_toList.mp hjar)
      rw [List.cons_append, List.singleton_append, scanClasspath, if_pos (Or.inl rfl),
        List.mem_append, h.ordinary.separator, filter_split_intercalate hsome hnames]
      simp only [List.mem_filter, DepsetOrder.mem_toList]

/-! ## The signature -/

/-- What is tracked depends on the path of an input. -/
theorem digests_filter {inputs : List Input} {keep : String → Bool} {path : String} :
    digests (inputs.filter fun input => keep input.path) path =
      if keep path then digests inputs path else none := by
  unfold digests
  rw [List.find?_filter]
  induction inputs with
  | nil => simp
  | cons input inputs ih =>
      rw [List.find?_cons, List.find?_cons]
      by_cases hpath : input.path = path
      · cases hkeep : keep path
        · simp [hpath, hkeep] at ih ⊢
          exact ih
        · simp [hpath, hkeep]
      · simp [hpath] at ih ⊢
        exact ih

open Classical in
/-- The digests that are hashed for a target. -/
theorem KotlincRequest.trackedDigests_eq (h : KotlincRequest platform ctx jar request)
    (path : String) :
    trackedDigests platform request path =
      if ctx.Resets platform path then digests request.inputs path else none := by
  have hkeep : (isTracked (ordinaryClasspath platform request.arguments) ⟨path, []⟩ = true) ↔
      ctx.Resets platform path := by
    simp only [isTracked, Bool.not_eq_true', Bool.or_eq_false_iff, List.contains_eq_mem,
      decide_eq_false_iff_not, h.mem_ordinaryClasspath, Context.Resets, and_assoc]
  have hfilter := @digests_filter request.inputs
    (fun path => isTracked (ordinaryClasspath platform request.arguments) ⟨path, []⟩) path
  refine Eq.trans hfilter ?_
  by_cases hresets : ctx.Resets platform path
  · rw [if_pos hresets, if_pos (hkeep.mpr hresets)]
  · rw [if_neg hresets, if_neg fun htracked => hresets (hkeep.mp htracked)]

theorem getBytes_subset_of_endsWith {value text : String} (h : endsWith value text = true) :
    getBytes text ⊆ getBytes value := by
  rw [endsWith, List.isSuffixOf_iff_suffix] at h
  obtain ⟨front, hfront⟩ := h
  have hvalue : value = String.ofList front ++ text := by
    apply String.toList_injective
    rw [String.toList_append, String.toList_ofList, hfront]
  have hbytes : getBytes value = getBytes (String.ofList front) ++ getBytes text := by
    rw [hvalue]
    simp [getBytes, String.toByteArray_append]
  rw [hbytes]
  exact List.subset_append_right _ _

/-- The last argument is a source. -/
theorem KotlincRequest.getLast?_arguments (h : KotlincRequest platform ctx jar request) :
    ∃ file ∈ ctx.srcs, request.arguments.getLast? = some file.path := by
  have hsources : ctx.srcs ≠ [] := by
    intro hnone
    have hincremental := h.incremental
    simp [CompileCommon.incremental, Target.sources, hnone] at hincremental
  refine ⟨ctx.srcs.getLast hsources, List.getLast_mem hsources, ?_⟩
  rw [h.arguments_eq, Context.compilerArgs, Context.srcPaths, List.getLast?_append,
    List.getLast?_cons_cons, List.getLast?_cons_cons, List.getLast?_cons]
  simp [List.getLast?_eq_getLast_of_ne_nil, hsources]

/-- No request is taken for another with more inputs: its last argument is no digest. -/
theorem KotlincRequest.not_takesInputsForArguments (hfirst : KotlincRequest platform ctx jar first)
    (hsecond : KotlincRequest platform ctx' jar' second) :
    ¬ TakesInputsForArguments platform first second := by
  rintro ⟨leading, hnil, harguments, hinputs⟩
  obtain ⟨file, hfile, hlast⟩ := hfirst.getLast?_arguments
  obtain ⟨earlier, input, rfl⟩ := (List.eq_nil_or_concat leading).resolve_left hnil
  have hdigest : getBytes file.path = input.digest := by
    have hlast' := congrArg List.getLast? harguments
    rw [List.getLast?_map, hlast] at hlast'
    simpa [chunks, List.concat_eq_append] using hlast'
  have hinput : input ∈ second.inputs := by
    have hmem : input ∈ trackedInputs platform second := by
      rw [hinputs, List.concat_eq_append]
      simp
    exact (List.mem_insertionSort _).mp (List.mem_filter.mp hmem).1
  have hdot : (46 : UInt8) ∈ getBytes file.path := by
    rcases hfirst.ordinary.sources file hfile with hkt | hjava
    · exact getBytes_subset_of_endsWith hkt (by decide)
    · exact getBytes_subset_of_endsWith hjava (by decide)
  have hhex := hsecond.hexadecimal input hinput 46 (hdigest ▸ hdot)
  exact absurd hhex (by decide)

theorem KotlincRequest.separator_mem (h : KotlincRequest platform ctx jar request) :
    "--" ∈ request.arguments := by
  rw [h.arguments_eq]
  simp

/-- What resets a target depends on its arguments. -/
theorem KotlincRequest.resets_iff (hfirst : KotlincRequest platform ctx jar first)
    (hsecond : KotlincRequest platform ctx' jar' second)
    (harguments : first.arguments = second.arguments) (path : String) :
    ctx.Resets platform path ↔ ctx'.Resets platform path := by
  unfold Context.Resets
  rw [← hfirst.mem_ordinaryClasspath, harguments, hsecond.mem_ordinaryClasspath]

theorem KotlincRequest.trackedDigests_iff (hfirst : KotlincRequest platform ctx jar first)
    (hsecond : KotlincRequest platform ctx' jar' second)
    (harguments : first.arguments = second.arguments) :
    trackedDigests platform first = trackedDigests platform second ↔
      ∀ path, ctx.Resets platform path →
        digests first.inputs path = digests second.inputs path := by
  rw [funext_iff]
  apply forall_congr'
  intro path
  rw [hfirst.trackedDigests_eq, hsecond.trackedDigests_eq]
  by_cases hresets : ctx.Resets platform path
  · rw [if_pos hresets, if_pos ((hfirst.resets_iff hsecond harguments path).mp hresets)]
    exact ⟨fun h _ => h, fun h => h hresets⟩
  · rw [if_neg hresets, if_neg fun h => hresets ((hfirst.resets_iff hsecond harguments path).mpr h)]
    exact iff_of_true rfl fun h => absurd h hresets

/-- The signature says what is the same of two requests. -/
theorem KotlincRequest.signature_iff (hsha : Function.Injective platform.sha256)
    (hfirst : KotlincRequest platform ctx jar first)
    (hsecond : KotlincRequest platform ctx' jar' second) :
    signature platform first = signature platform second ↔ first.arguments = second.arguments ∧
      ∀ path, ctx.Resets platform path →
        digests first.inputs path = digests second.inputs path := by
  rw [signature_eq_iff hsha]
  constructor
  · intro hchunks
    rcases hashedChunks_eq hchunks with ⟨harguments, hinputs⟩ | hwrong | hwrong
    · refine ⟨harguments, (hfirst.trackedDigests_iff hsecond harguments).mp ?_⟩
      exact trackedDigests_of_trackedInputs hfirst.distinctPaths hsecond.distinctPaths harguments
        hfirst.separator_mem hinputs
    · exact absurd hwrong (hfirst.not_takesInputsForArguments hsecond)
    · exact absurd hwrong (hsecond.not_takesInputsForArguments hfirst)
  · rintro ⟨harguments, hdigests⟩
    have htracked := (hfirst.trackedDigests_iff hsecond harguments).mpr hdigests
    rw [hashedChunks, hashedChunks, harguments,
      trackedInputs_of_trackedDigests hfirst.distinctPaths hsecond.distinctPaths
        harguments htracked]

/-- **When a target starts afresh.**  Of two requests for incremental targets, the signatures are
the same exactly if the arguments are, and every file whose content resets the target: edits of
the sources and of ordinary jars on the class path leave the compiler its state. -/
theorem signature_of_sent_iff (hsha : Function.Injective platform.sha256)
    (hfirst : KotlincRequest platform ctx jar first)
    (hsecond : KotlincRequest platform ctx' jar' second) :
    signature platform first = signature platform second ↔ first.arguments = second.arguments ∧
      ∀ path, ctx.Resets platform path → digests first.inputs path = digests second.inputs path :=
  hfirst.signature_iff hsha hsecond

/-- The request for the sample target, with some digest of its source. -/
def sampleRequest : WorkRequest :=
  .ofDecodable ⟨[10, 2] ++ getBytes "--" ++ [10, 2] ++ getBytes "-d" ++ [10, 25] ++
    getBytes "bazel-out/bin/app/lib.jar" ++ [10, 10] ++ getBytes "-classpath" ++ [10, 8] ++
    getBytes "base.jar" ++ [10, 8] ++ getBytes "app/A.kt" ++
    [18, 14, 10, 8] ++ getBytes "app/A.kt" ++ [18, 2] ++ getBytes "a0" ++
    [18, 14, 10, 8] ++ getBytes "base.jar" ++ [18, 2] ++ getBytes "b0" ++
    [18, 17, 10, 11] ++ getBytes "tools/elide" ++ [18, 2] ++ getBytes "e0", by decide +kernel⟩
      (by decide +kernel)

/-- The request after the source and the jar were edited. -/
def editedRequest : WorkRequest :=
  .ofDecodable ⟨[10, 2] ++ getBytes "--" ++ [10, 2] ++ getBytes "-d" ++ [10, 25] ++
    getBytes "bazel-out/bin/app/lib.jar" ++ [10, 10] ++ getBytes "-classpath" ++ [10, 8] ++
    getBytes "base.jar" ++ [10, 8] ++ getBytes "app/A.kt" ++
    [18, 14, 10, 8] ++ getBytes "app/A.kt" ++ [18, 2] ++ getBytes "a1" ++
    [18, 14, 10, 8] ++ getBytes "base.jar" ++ [18, 2] ++ getBytes "b1" ++
    [18, 17, 10, 11] ++ getBytes "tools/elide" ++ [18, 2] ++ getBytes "e0", by decide +kernel⟩
      (by decide +kernel)

/-- The bytes that are hashed for both of them. -/
def buildStream : Bytes :=
  [0, 0, 0, 2] ++ getBytes "--" ++ [0, 0, 0, 2] ++ getBytes "-d" ++ [0, 0, 0, 25] ++
    getBytes "bazel-out/bin/app/lib.jar" ++ [0, 0, 0, 10] ++ getBytes "-classpath" ++
    [0, 0, 0, 8] ++ getBytes "base.jar" ++ [0, 0, 0, 8] ++ getBytes "app/A.kt" ++
    [0, 0, 0, 11] ++ getBytes "tools/elide" ++ [0, 0, 0, 2] ++ getBytes "e0"

/-- A digest without collisions that agrees with SHA-256 on `buildStream`. -/
def buildDigest (bytes : Bytes) : Bytes :=
  if bytes = buildStream then
    [37, 136, 169, 48, 90, 8, 16, 68, 218, 98, 241, 48, 81, 147, 252, 53, 104, 129, 33, 28, 96, 80,
      180, 10, 66, 166, 153, 69, 232, 219, 185, 118]
  else List.replicate 33 0 ++ bytes

theorem buildDigest_injective : Function.Injective buildDigest := by
  intro bytes bytes' h
  have hlonger : ∀ other : Bytes, (List.replicate 33 0 ++ other).length ≠ 32 := by
    intro other
    rw [List.length_append, List.length_replicate]
    omega
  unfold buildDigest at h
  split at h <;> split at h
  · rename_i hbytes hbytes'
    rw [hbytes, hbytes']
  · exact absurd (congrArg List.length h).symm (hlonger bytes')
  · exact absurd (congrArg List.length h) (hlonger bytes)
  · exact List.append_cancel_left h

def buildPlatform : Platform := ⟨buildDigest, ':', []⟩

theorem sample_ordinary : Ordinary (sampleContext { incremental := true }) buildPlatform := by
  constructor <;> decide +kernel

theorem sample_requests :
    sampleRequest.arguments =
        ["--", "-d", "bazel-out/bin/app/lib.jar", "-classpath", "base.jar", "app/A.kt"] ∧
      editedRequest.arguments = sampleRequest.arguments ∧
      sampleRequest.inputs =
        [⟨"app/A.kt", getBytes "a0"⟩, ⟨"base.jar", getBytes "b0"⟩, ⟨"tools/elide", getBytes "e0"⟩] ∧
      editedRequest.inputs =
        [⟨"app/A.kt", getBytes "a1"⟩, ⟨"base.jar", getBytes "b1"⟩,
          ⟨"tools/elide", getBytes "e0"⟩] := by
  decide +kernel

theorem sample_hexadecimal : ∀ input ∈ sampleRequest.inputs ++ editedRequest.inputs,
    ∀ byte ∈ input.digest, byte ∈ getBytes "0123456789abcdef" := by
  rw [sample_requests.2.2.1, sample_requests.2.2.2]
  decide +kernel

/-- A request with these arguments and inputs is sent for the sample target. -/
theorem kotlincRequest_of_sample {request : WorkRequest}
    (harguments : request.arguments =
      ["--", "-d", "bazel-out/bin/app/lib.jar", "-classpath", "base.jar", "app/A.kt"])
    (hinputs : request.inputs.map Input.path = ["app/A.kt", "base.jar", "tools/elide"])
    (hdigests : ∀ input ∈ request.inputs, ∀ byte ∈ input.digest,
      byte ∈ getBytes "0123456789abcdef") :
    KotlincRequest buildPlatform (sampleContext { incremental := true })
      ⟨"bazel-out/bin/app", "lib.jar"⟩
      request where
  ordinary := sample_ordinary
  incremental := by decide +kernel
  compiles := by decide +kernel
  arguments := by
    rw [harguments]
    decide +kernel
  distinctPaths := by
    rw [DistinctPaths, hinputs]
    decide
  hexadecimal := hdigests

theorem sample_kotlincRequest : KotlincRequest buildPlatform (sampleContext { incremental := true })
    ⟨"bazel-out/bin/app", "lib.jar"⟩ sampleRequest :=
  kotlincRequest_of_sample sample_requests.1 (by simp [sample_requests])
    fun input hinput => sample_hexadecimal input (List.mem_append_left _ hinput)

theorem edited_kotlincRequest : KotlincRequest buildPlatform (sampleContext { incremental := true })
    ⟨"bazel-out/bin/app", "lib.jar"⟩ editedRequest :=
  kotlincRequest_of_sample (sample_requests.2.1.trans sample_requests.1) (by simp [sample_requests])
    fun input hinput => sample_hexadecimal input (List.mem_append_right _ hinput)

/-- Edits of the source and of the jar keep the signature. -/
theorem signature_of_sent_iff_sample :
    signature buildPlatform sampleRequest = signature buildPlatform editedRequest := by
  rw [signature_of_sent_iff buildDigest_injective sample_kotlincRequest edited_kotlincRequest]
  refine ⟨sample_requests.2.1.symm, ?_⟩
  intro path hresets
  obtain ⟨hkt, -, hjar⟩ := hresets
  have hsource : path ≠ "app/A.kt" := by
    rintro rfl
    exact absurd hkt (by decide +kernel)
  have hbase : path ≠ "base.jar" := by
    rintro rfl
    exact hjar (by decide +kernel)
  simp [digests, sample_requests, hsource.symm, hbase.symm]

/-! ## Runs -/

/-- Two compilations of a run with their requests: a root is used again only for the same jar, after
a success, and if nothing has changed but what the compiler keeps account of. -/
def ReusedSoundly (platform : Platform)
    (earlier later : IncrementalWorker.Compilation × WorkRequest) :
    Prop :=
  earlier.1.root = later.1.root →
    earlier.1.output = later.1.output ∧ earlier.1.Succeeded ∧
      earlier.2.arguments = later.2.arguments ∧
      ∀ ctx jar, KotlincRequest platform ctx jar earlier.2 → ∀ path, ctx.Resets platform path →
        digests earlier.2.inputs path = digests later.2.inputs path

/-- **Incremental builds.**  A worker that serves requests for incremental targets compiles into the
jars that the targets declare, and uses its state again only if nothing else has changed than
the sources and what the compiler keeps account of. -/
theorem incremental_builds {scratch : Path} {requests : List WorkRequest} {world : World}
    (hsha : Function.Injective platform.sha256) (hserved : Served platform scratch requests world)
    (hsent : ∀ request ∈ requests, ∃ ctx jar, KotlincRequest platform ctx jar request) :
    ∃ forwarded, forwarded.Sublist requests ∧
      List.Forall₂ (fun compilation request => ∀ ctx jar, KotlincRequest platform ctx jar request →
        Path.absolute platform.workingDirectory jar.path = .ok compilation.output)
          world.history forwarded ∧
      (world.history.zip forwarded).Pairwise (ReusedSoundly platform) := by
  obtain ⟨forwarded, hsublist, hof⟩ := hserved.forwarded
  refine ⟨forwarded, hsublist, hof.imp fun compilation request hof ctx jar hsent => ?_, ?_⟩
  · rw [← requestedOutput_of_splits hsent.splits, hof.1]
  · have hreusable := (Sound.of_reachable hserved.reachable).reusable
    have hpairs : (world.history.zip forwarded).Pairwise fun earlier later =>
        Reusable earlier.1 later.1 := by
      rw [← List.pairwise_map (f := Prod.fst), List.map_fst_zip hof.length_eq.le]
      exact hreusable
    apply hpairs.imp_of_mem
    intro earlier later hearlier hlater hreuse hroot
    obtain ⟨houtput, hsignature, hsucceeded, -⟩ := hreuse hroot
    have hofs : ∀ pair ∈ world.history.zip forwarded, pair.1.Of platform pair.2 :=
      fun pair hpair => (List.forall₂_iff_zip.mp hof).2 hpair
    have hsame : signature platform earlier.2 = signature platform later.2 := by
      rw [← (hofs earlier hearlier).2, hsignature, (hofs later hlater).2]
    obtain ⟨ctx', jar', hlater'⟩ := hsent later.2 (hsublist.subset (List.of_mem_zip hlater).2)
    obtain ⟨ctx, jar, hearlier'⟩ := hsent earlier.2 (hsublist.subset (List.of_mem_zip hearlier).2)
    refine ⟨houtput, hsucceeded, ((hearlier'.signature_iff hsha hlater').mp hsame).1, ?_⟩
    intro ctx jar hctx
    exact ((hctx.signature_iff hsha hlater').mp hsame).2

/-- The worker after the request for the sample target. -/
def servedWorld : World :=
  (call buildPlatform ["scratch"] sampleWorld sampleEnvironment sampleRequest).2

/-- The root of the first compilation is used again. -/
theorem sample_roots :
    let after := call buildPlatform ["scratch"] servedWorld sampleEnvironment editedRequest
    GoesOn (call buildPlatform ["scratch"] sampleWorld sampleEnvironment sampleRequest).1 ∧
      GoesOn after.1 ∧ after.2.history.map IncrementalWorker.Compilation.root =
      [["scratch", "target-1"], ["scratch", "target-1"]] := by
  decide +kernel

theorem sample_served : Served buildPlatform ["scratch"] [sampleRequest, editedRequest]
    (call buildPlatform ["scratch"] servedWorld sampleEnvironment editedRequest).2 := by
  have hfirst : Served buildPlatform ["scratch"] [sampleRequest] servedWorld :=
    (Served.start sampleWorld_initial).next sampleEnvironment sampleRequest sample_roots.1
  exact hfirst.next sampleEnvironment editedRequest sample_roots.2.1

theorem incremental_builds_sample :
    let world := (call buildPlatform ["scratch"] servedWorld sampleEnvironment editedRequest).2
    world.history.map IncrementalWorker.Compilation.root =
      [["scratch", "target-1"], ["scratch", "target-1"]] ∧
      ∃ forwarded, forwarded.Sublist [sampleRequest, editedRequest] ∧
        List.Forall₂
          (fun compilation request => ∀ ctx jar, KotlincRequest buildPlatform ctx jar request →
          Path.absolute buildPlatform.workingDirectory jar.path = .ok compilation.output)
            world.history forwarded ∧
        (world.history.zip forwarded).Pairwise (ReusedSoundly buildPlatform) := by
  constructor
  · exact sample_roots.2.2
  · apply incremental_builds buildDigest_injective sample_served
    intro request hrequest
    rcases List.mem_pair.mp hrequest with rfl | rfl
    · exact ⟨_, _, sample_kotlincRequest⟩
    · exact ⟨_, _, edited_kotlincRequest⟩

end RulesElide.CompileCommon
