import RulesElide.KotlinBuilder.Router

/-!
# The options of `javac` from the flagfile to the command

The flagfile gives the options of `javac` one token a line, and `Flagfile.parse` starts a new
group at every token that begins with two dashes.  An option of `javac` that begins with two
dashes therefore ends the list of options: neither the router nor the planner sees it or
what follows it.  `options_kept_iff` says that nothing else loses an option.
-/

namespace RulesElide.KotlinBuilder

open Flagfile Router ElideCompile

/-- The flags the builder knows. -/
def builderFlags : List String :=
  ["--output", "--abi_jar", "--kotlin_output_jdeps", "--kotlin_output_srcjar",
    "--kotlin_module_name", "--module_name", "--target_label", "--sources", "--source_jars",
    "--classpath", "--libraries", "--direct_dependencies", "--kotlin_friend_paths",
    "--kotlin_passthrough_flags", "--javacopts", "--strict_kotlin_deps", "--processors",
    "--processorpath", "--processor_classpath", "--compiler_plugin_classpath",
    "--compiler_plugin_options", "--stubs_plugin_classpath", "--stubs_plugin_options",
    "--kotlin_api_version", "--api_version", "--kotlin_language_version", "--language_version",
    "--generated_java_srcjar", "--kapt_generated_class_jar", "--kapt_generated_stub_jar",
    "--generated_sources_output", "--generated_classes_output", "--ksp_options",
    "--kotlin_jvm_target", "--jvm_target", "--experimental_psi_resolution"]

/-- A flagfile of an annotation-processing request with options for `javac`. -/
structure KaptFlagfile where
  /-- The groups before and after the options. -/
  before : List Group
  after : List Group
  opts : List String
  srcjar : "--generated_java_srcjar" ∈ (before ++ after).map Group.flag
  processors : valuesOf "--processors" (before ++ after) ≠ []
  opts_only : "--javacopts" ∉ (before ++ after).map Group.flag
  not_ksp : "--generated_sources_output" ∉ (before ++ after).map Group.flag
  opts_ne : ∀ opt ∈ opts, opt ≠ ""
  opts_not_flags : ∀ opt ∈ opts, opt ∉ builderFlags

namespace KaptFlagfile

/-- The lines of the file. -/
def tokens (file : KaptFlagfile) : List String :=
  file.before.flatMap Group.tokens ++ "--javacopts" :: file.opts ++ file.after.flatMap Group.tokens

/-- The values of a flag, the options for `javac` apart. -/
def values (file : KaptFlagfile) (flag : String) : List String :=
  valuesOf flag (file.before ++ file.after)

/-- The options before the first one that begins with two dashes. -/
def seenOpts (file : KaptFlagfile) : List String :=
  file.opts.takeWhile fun opt => !startsWith opt "--"

end KaptFlagfile

/-- In native mode, Elide gets the request only if all options are for the processors, and
then its command has them all, in order; otherwise the fallback builder gets it. -/
def OptionsKept (host : Host) (file : KaptFlagfile) : Prop :=
  (route (parse file.tokens) true).route = .fallback ∨
    (route (parse file.tokens) true).route = .fast ∧
      (∀ opt ∈ file.opts, startsWith opt "-A" = true) ∧
      ∀ elidePath extraSources usedDepsReport, ∃ command commands,
        plan host (parse file.tokens) elidePath extraSources usedDepsReport true =
          .ok (command :: commands) ∧
        (file.opts.flatMap fun opt => ["--processor-option", removePrefix opt "-A"]) <:+: command

/-- The request has no source jar, a stubs plugin, or an option for `javac` itself before the
first option that begins with two dashes. -/
def FallsBackAnyway (file : KaptFlagfile) : Prop :=
  file.values "--generated_java_srcjar" = [] ∨ file.values "--stubs_plugin_classpath" ≠ [] ∨
    file.values "--stubs_plugin_options" ≠ [] ∨ ∃ opt ∈ file.seenOpts, startsWith opt "-A" = false

instance : DecidablePred FallsBackAnyway := fun _ => inferInstanceAs (Decidable (_ ∨ _ ∨ _ ∨ _))

/-! ## Parsing -/

variable {host : Host} {file : KaptFlagfile} {flag : String}

/-- The options after the first one that begins with two dashes are groups of their own. -/
theorem tokens_eq_groups (file : KaptFlagfile) :
    ∃ (opts : Group) (others : List Group),
      file.tokens = (file.before ++ opts :: (others ++ file.after)).flatMap Group.tokens ∧
        opts.flag = "--javacopts" ∧ opts.values = file.seenOpts ∧
        ∀ group ∈ others, group.flag ∉ builderFlags := by
  obtain ⟨others, hothers, hflags⟩ := exists_groups file.opts
  have hvalues : ∀ value ∈ file.seenOpts, startsWith value "--" = false := by
    intro value hvalue
    simpa using List.mem_takeWhile_imp hvalue
  refine ⟨⟨"--javacopts", file.seenOpts, by decide, hvalues⟩, others, ?_, rfl, rfl, ?_⟩
  · -- the first option with two dashes, if there is one, is where the others begin
    have hopts : file.seenOpts ++ others.flatMap Group.tokens = file.opts := by
      rw [← hothers, KaptFlagfile.seenOpts, List.takeWhile_append_dropWhile]
    simp only [List.flatMap_append, List.flatMap_cons, KaptFlagfile.tokens, Group.tokens]
    rw [← hopts]
    simp only [List.cons_append, List.append_assoc]
  · exact fun group hgroup => file.opts_not_flags _ (hflags group hgroup)

theorem valuesOf_groups {opts : Group} {others : List Group} (hopts : opts.flag = "--javacopts")
    (hothers : ∀ group ∈ others, group.flag ∉ builderFlags) (hflag : flag ∈ builderFlags)
    (hne : flag ≠ "--javacopts") :
    valuesOf flag (file.before ++ opts :: (others ++ file.after)) = file.values flag := by
  -- what begins with dashes inside the options is no flag of the builder
  have hnone : valuesOf flag others = [] := by
    apply valuesOf_of_not_mem
    intro hmem
    obtain ⟨group, hgroup, rfl⟩ := List.mem_map.mp hmem
    exact hothers group hgroup hflag
  have hsingle : valuesOf flag [opts] = [] := by
    apply valuesOf_of_not_mem
    simpa [hopts] using hne
  calc valuesOf flag (file.before ++ opts :: (others ++ file.after))
      = valuesOf flag file.before ++
          (valuesOf flag [opts] ++ (valuesOf flag others ++ valuesOf flag file.after)) := by
        rw [← List.singleton_append, valuesOf_append, valuesOf_append, valuesOf_append]
    _ = valuesOf flag file.before ++ valuesOf flag file.after := by
        rw [hsingle, hnone, List.nil_append, List.nil_append]
    _ = file.values flag := (valuesOf_append flag file.before file.after).symm

theorem list_tokens (hflag : flag ∈ builderFlags) (hne : flag ≠ "--javacopts") :
    list (readFlags file.tokens) flag = file.values flag := by
  obtain ⟨opts, others, htokens, hopts, _, hothers⟩ := tokens_eq_groups file
  rw [htokens, list_groups, valuesOf_groups hopts hothers hflag hne]

theorem first_tokens (hflag : flag ∈ builderFlags) (hne : flag ≠ "--javacopts") :
    first (readFlags file.tokens) flag = (file.values flag).head? := by
  obtain ⟨opts, others, htokens, hopts, _, hothers⟩ := tokens_eq_groups file
  rw [htokens, first_groups, valuesOf_groups hopts hothers hflag hne]

/-- The parser sees the options up to the first one that begins with two dashes. -/
theorem list_javacopts (file : KaptFlagfile) :
    list (readFlags file.tokens) "--javacopts" = file.seenOpts := by
  obtain ⟨opts, others, htokens, hopts, hvalues, hothers⟩ := tokens_eq_groups file
  have hnone : valuesOf "--javacopts" others = [] := by
    apply valuesOf_of_not_mem
    intro hmem
    obtain ⟨group, hgroup, hflag⟩ := List.mem_map.mp hmem
    exact hothers group hgroup (hflag ▸ by decide)
  have hsides := valuesOf_of_not_mem file.opts_only
  rw [valuesOf_append, List.append_eq_nil_iff] at hsides
  have hsingle : valuesOf "--javacopts" [opts] = file.seenOpts := by
    simp [valuesOf, hopts, hvalues]
  calc list (readFlags file.tokens) "--javacopts"
      = valuesOf "--javacopts" file.before ++ (valuesOf "--javacopts" [opts] ++
          (valuesOf "--javacopts" others ++ valuesOf "--javacopts" file.after)) := by
        rw [htokens, list_groups, ← List.singleton_append, valuesOf_append, valuesOf_append,
          valuesOf_append]
    _ = file.seenOpts := by
        rw [hsides.1, hsides.2, hnone, hsingle, List.nil_append, List.nil_append, List.append_nil]

/-! ## Routing and planning -/

theorem kspSources_eq (file : KaptFlagfile) : (parse file.tokens).kspSources = none := by
  have hvalues : file.values "--generated_sources_output" = [] := valuesOf_of_not_mem file.not_ksp
  change first (readFlags file.tokens) "--generated_sources_output" = none
  rw [first_tokens (by decide) (by decide), hvalues, List.head?_nil]

theorem kaptSources_eq (file : KaptFlagfile) :
    (parse file.tokens).kaptSources = (file.values "--generated_java_srcjar").head? :=
  first_tokens (by decide) (by decide)

theorem processors_ne (file : KaptFlagfile) : (parse file.tokens).processors ≠ [] := by
  change list (readFlags file.tokens) "--processors" ≠ []
  rw [list_tokens (by decide) (by decide)]
  exact file.processors

theorem hasCustomJavac_iff (file : KaptFlagfile) :
    HasCustomJavac (parse file.tokens) ↔
      file.values "--stubs_plugin_classpath" ≠ [] ∨ file.values "--stubs_plugin_options" ≠ [] ∨
        ∃ opt ∈ file.seenOpts, startsWith opt "-A" = false := by
  change list (readFlags file.tokens) "--stubs_plugin_classpath" ≠ [] ∨
    list (readFlags file.tokens) "--stubs_plugin_options" ≠ [] ∨
      (∃ opt ∈ list (readFlags file.tokens) "--javacopts", startsWith opt "-A" = false) ↔ _
  rw [list_tokens (by decide) (by decide), list_tokens (by decide) (by decide), list_javacopts]

/-- The request goes to Elide exactly when nothing else makes it fall back. -/
theorem route_tokens (file : KaptFlagfile) :
    (route (parse file.tokens) true).route =
      if FallsBackAnyway file then .fallback else .fast := by
  have hcondition : FallsBackAnyway file ↔
      ¬ ((parse file.tokens).kaptSources ≠ none ∧ ¬ HasCustomJavac (parse file.tokens)) := by
    rw [hasCustomJavac_iff, kaptSources_eq, Ne, List.head?_eq_none_iff, FallsBackAnyway,
      not_and_or, not_not, not_not]
  split
  · rename_i hfalls
    rw [route_of_rest true (kspSources_eq file) fun h => hcondition.mp hfalls h.2,
      if_pos (Or.inl (processors_ne file))]
  · rename_i hfast
    obtain ⟨hkapt, hcustom⟩ := not_not.mp fun h => hfast (hcondition.mpr h)
    exact route_of_kapt (kspSources_eq file) hkapt hcustom

/-- The command has the options for the processors one after the other. -/
theorem infix_nativeOptions (host : Host) {req : CompileRequest} (h : processing req = true) :
    (req.processorOptions.flatMap fun processorOption =>
      ["--processor-option", processorOption]) <:+:
      nativeOptions host req := by
  rw [nativeOptions, h, if_pos rfl, processorOptions]
  exact (List.suffix_append _ _).isInfix.trans (List.suffix_append _ _).isInfix

theorem plan_tokens (host : Host) (hkapt : (parse file.tokens).kaptSources ≠ none)
    (hopts : ∀ opt ∈ file.opts, startsWith opt "-A" = true) (hseen : file.seenOpts = file.opts)
    (elidePath : String) (extraSources : List String) (usedDepsReport : Option String) :
    ∃ command commands,
      plan host (parse file.tokens) elidePath extraSources usedDepsReport true =
        .ok (command :: commands) ∧
      (file.opts.flatMap fun opt =>
        ["--processor-option", removePrefix opt "-A"]) <:+: command := by
  have hprocessing : processing (parse file.tokens) = true := by
    rw [processing, Option.isSome_iff_ne_none.mpr hkapt, Bool.true_or]
  refine ⟨_, _, plan_of_processing hprocessing, ?_⟩
  -- all options are seen and begin with `-A`, so the filter keeps them
  have hprocessorOptions : (parse file.tokens).processorOptions =
      list (readFlags file.tokens) "--ksp_options" ++ file.opts.map (removePrefix · "-A") := by
    change _ ++ ((list (readFlags file.tokens) "--javacopts").filter (startsWith · "-A")).map _ = _
    rw [list_javacopts, hseen, List.filter_eq_self.mpr hopts]
  have hinfix := infix_nativeOptions host hprocessing
  rw [hprocessorOptions, List.flatMap_append, List.flatMap_map] at hinfix
  have hsuffix := (List.suffix_append _ _).isInfix.trans hinfix
  exact hsuffix.trans ((List.suffix_append _ _).isInfix.trans (List.prefix_append _ _).isInfix)

theorem seenOpts_eq_iff (file : KaptFlagfile) :
    file.seenOpts = file.opts ↔ ∀ opt ∈ file.opts, startsWith opt "--" = false := by
  simp [KaptFlagfile.seenOpts, List.takeWhile_eq_self_iff]

/-- No option begins both with `-A` and with two dashes. -/
theorem not_dashes_of_option {opt : String} (h : startsWith opt "-A" = true) :
    startsWith opt "--" = false := by
  obtain ⟨rest, hrest⟩ := List.isPrefixOf_iff_prefix.mp h
  rw [startsWith, ← hrest]
  rfl

/-- **The options of `javac`.**  They are kept exactly when none begins with two dashes, unless
the request falls back anyway. -/
theorem options_kept_iff (host : Host) (file : KaptFlagfile) :
    OptionsKept host file ↔
      (∀ opt ∈ file.opts, startsWith opt "--" = false) ∨ FallsBackAnyway file := by
  have hroute := route_tokens file
  constructor
  · intro hkept
    rcases hkept with hfallback | ⟨_, hopts, _⟩
    · right
      by_contra hfalls
      rw [if_neg hfalls] at hroute
      exact absurd (hfallback.symm.trans hroute) (by decide)
    · exact Or.inl fun opt hopt => not_dashes_of_option (hopts opt hopt)
  · intro h
    by_cases hfalls : FallsBackAnyway file
    · left
      rw [hroute, if_pos hfalls]
    · right
      rw [if_neg hfalls] at hroute
      -- with nothing lost, what is parsed is what was written
      have hseen := (seenOpts_eq_iff file).mpr (h.resolve_right hfalls)
      simp only [FallsBackAnyway, not_or, hseen, not_exists, not_and, Bool.not_eq_false] at hfalls
      obtain ⟨hsrcjar, _, _, hopts⟩ := hfalls
      have hkapt : (parse file.tokens).kaptSources ≠ none := by
        rw [kaptSources_eq, Ne, List.head?_eq_none_iff]
        exact hsrcjar
      exact ⟨hroute, hopts, plan_tokens host hkapt hopts hseen⟩

/-- One processor, one source file, and the options `-Akey=value` and `--release 21`. -/
def releaseFlagfile : KaptFlagfile where
  before := [⟨"--generated_java_srcjar", ["src.jar"], by decide, by decide⟩,
    ⟨"--processors", ["com.example.P"], by decide, by decide⟩]
  after := sampleGroups.take 1
  opts := ["-Akey=value", "--release", "21"]
  srcjar := by decide
  processors := by decide
  opts_only := by decide
  not_ksp := by decide
  opts_ne := by decide
  opts_not_flags := by decide

theorem release_option_lost : ¬ ∀ (host : Host) (file : KaptFlagfile), OptionsKept host file := by
  intro h
  rcases h {} releaseFlagfile with hfallback | ⟨_, hopts, _⟩
  · exact absurd hfallback (by decide)
  · exact absurd (hopts "--release" (by decide)) (by decide)

end RulesElide.KotlinBuilder
