import RulesElide.KotlinBuilder.ElideCompile

/-!
# Builtin plugins

A jar that duplicates a builtin plugin of Elide must not be loaded with `-Xplugin`, and the
builtin must be enabled in its place.  Three computations have to agree for this: `detect`
enables the builtins, the loop over the class path drops the detected jars, and
`isRewrittenXplugin` drops flags.  `plan_keeps_plugins` says what they do together to the
plugins a request asks for.
-/

namespace RulesElide.KotlinBuilder

open BuiltinPlugins ElideCompile

/-- The jar that a flag loads as a plugin. -/
def pluginJar (flag : String) : Option String :=
  if startsWith flag "-Xplugin=" then some (removePrefix flag "-Xplugin=") else none

/-- The jars a request asks to load as plugins. -/
def requestedJars (req : CompileRequest) : List String :=
  req.compilerPluginClasspath ++ req.passthroughFlags.filterMap pluginJar

/-- The value is neither a flag that loads a plugin nor one that enables a builtin. -/
structure IsPlain (value : String) : Prop where
  notPlugin : startsWith value "-Xplugin=" = false
  notBuiltin : startsWith value "--plugins=" = false

instance : DecidablePred IsPlain := fun value =>
  decidable_of_iff (startsWith value "-Xplugin=" = false ∧ startsWith value "--plugins=" = false)
    ⟨fun h => ⟨h.1, h.2⟩, fun h => ⟨h.1, h.2⟩⟩

/-- The values of a request, field by field, other than passthrough flags. -/
def CompileRequest.valueLists (req : CompileRequest) : List (List String) :=
  [req.output.toList, req.abiJar.toList, req.jdeps.toList, req.srcjar.toList,
    req.moduleName.toList, req.targetLabel.toList, req.sources, req.sourceJars, req.classpath,
    req.directDependencies, req.friendPaths, req.javacOpts, [req.strictKotlinDeps],
    req.processors, req.processorPath, req.compilerPluginClasspath, req.compilerPluginOptions,
    req.stubsPluginClasspath, req.stubsPluginOptions, req.apiVersion.toList,
    req.languageVersion.toList, req.kaptSources.toList, req.kaptClasses.toList,
    req.kaptStubs.toList, req.kspSources.toList, req.kspClasses.toList, req.processorOptions,
    req.jvmTarget.toList]

def CompileRequest.values (req : CompileRequest) : List String :=
  req.valueLists.flatten

/-- What the command does with the plugins of a request: its options stand in front of the
separator and its arguments behind it. -/
structure KeepsPlugins (req : CompileRequest) (options arguments : List String) : Prop where
  /-- No flag loads a jar that duplicates a builtin. -/
  rewritten : ∀ flag ∈ options ++ arguments, ∀ jar, pluginJar flag = some jar →
    builtinFor jar = none
  /-- One option enables the builtins that are asked for, each of them once. -/
  builtins : ∃ names : List String, names.Nodup ∧
    (∀ name, name ∈ names ↔ ∃ jar ∈ requestedJars req, builtinFor jar = some name) ∧
      options.filter (startsWith · "--plugins=") =
        if names = [] then [] else ["--plugins=" ++ ",".intercalate names]
  /-- Every other plugin is loaded. -/
  loaded : ∀ jar ∈ requestedJars req, builtinFor jar = none → "-Xplugin=" ++ jar ∈ arguments
  /-- A plugin is loaded once if neither list repeats it. -/
  once : ∀ jar ∈ requestedJars req, builtinFor jar = none →
    req.compilerPluginClasspath.count jar ≤ 1 →
      req.passthroughFlags.count ("-Xplugin=" ++ jar) ≤ 1 →
        arguments.count ("-Xplugin=" ++ jar) = 1
  /-- All other passthrough flags are there, in order. -/
  others : (req.passthroughFlags.filter fun flag => !isRewrittenXplugin flag) <:+: arguments

/-! ## Flags and jars -/

theorem pluginJar_eq_some_iff {flag jar : String} :
    pluginJar flag = some jar ↔ flag = "-Xplugin=" ++ jar := by
  unfold pluginJar
  constructor
  · intro h
    by_cases hflag : startsWith flag "-Xplugin=" = true
    · rw [if_pos hflag] at h
      rw [← Option.some.inj h, append_removePrefix hflag]
    · rw [if_neg hflag] at h
      exact nomatch h
  · rintro rfl
    rw [if_pos (startsWith_append _ _), removePrefix_append]

/-- A flag that loads a plugin is dropped exactly when the plugin duplicates a builtin. -/
theorem isRewrittenXplugin_append {jar : String} :
    isRewrittenXplugin ("-Xplugin=" ++ jar) = (builtinFor jar).isSome := by
  rw [isRewrittenXplugin, startsWith_append, removePrefix_append, Bool.true_and]

theorem mem_requestedJars {req : CompileRequest} {jar : String} :
    jar ∈ requestedJars req ↔
      jar ∈ req.compilerPluginClasspath ∨ "-Xplugin=" ++ jar ∈ req.passthroughFlags := by
  rw [requestedJars, List.mem_append, List.mem_filterMap]
  refine or_congr_right ⟨?_, fun h => ⟨_, h, pluginJar_eq_some_iff.mpr rfl⟩⟩
  rintro ⟨flag, hflag, hjar⟩
  exact pluginJar_eq_some_iff.mp hjar ▸ hflag

/-! ## Detecting builtins -/

theorem detect_eq (req : CompileRequest) :
    detect req = (requestedJars req).foldl putIfAbsent [] := by
  have hjars : ∀ flags : List String,
      (flags.filter (startsWith · "-Xplugin=")).map (removePrefix · "-Xplugin=") =
        flags.filterMap pluginJar := by
    intro flags
    induction flags with
    | nil => rfl
    | cons flag flags ih =>
        by_cases hflag : startsWith flag "-Xplugin=" = true
        · simp [pluginJar, hflag, ih]
        · simp [pluginJar, hflag, ih]
  rw [detect, hjars]
  rfl

theorem mem_putIfAbsent {byJar : List Rewrite} {jar : String} {rewrite : Rewrite}
    (h : rewrite ∈ putIfAbsent byJar jar) :
    rewrite ∈ byJar ∨ rewrite.jar = jar ∧ builtinFor jar = some rewrite.builtin := by
  unfold putIfAbsent at h
  split at h
  · exact Or.inl h
  · rename_i name hname
    split at h
    · exact Or.inl h
    · rcases List.mem_append.mp h with hold | hnew
      · exact Or.inl hold
      · obtain rfl := List.mem_singleton.mp hnew
        exact Or.inr ⟨rfl, hname⟩

theorem subset_putIfAbsent (byJar : List Rewrite) (jar : String) :
    byJar ⊆ putIfAbsent byJar jar := by
  unfold putIfAbsent
  split
  · exact List.Subset.refl _
  · split
    · exact List.Subset.refl _
    · exact List.subset_append_left _ _

theorem mem_putIfAbsent_self {byJar : List Rewrite} {jar name : String}
    (h : builtinFor jar = some name) : jar ∈ (putIfAbsent byJar jar).map Rewrite.jar := by
  unfold putIfAbsent
  rw [h]
  dsimp only
  split
  · assumption
  · simp

/-- The loop of `detect` adds only jars that duplicate a builtin. -/
theorem mem_foldl_putIfAbsent {jars : List String} {rewrite : Rewrite} :
    ∀ {byJar : List Rewrite}, rewrite ∈ jars.foldl putIfAbsent byJar →
      rewrite ∈ byJar ∨ rewrite.jar ∈ jars ∧ builtinFor rewrite.jar = some rewrite.builtin := by
  induction jars with
  | nil => exact fun h => Or.inl h
  | cons jar jars ih =>
      intro byJar h
      rw [List.foldl_cons] at h
      rcases ih h with hput | ⟨hjar, hbuiltin⟩
      · rcases mem_putIfAbsent hput with hold | ⟨rfl, hbuiltin⟩
        · exact Or.inl hold
        · exact Or.inr ⟨List.mem_cons_self, hbuiltin⟩
      · exact Or.inr ⟨List.mem_cons_of_mem _ hjar, hbuiltin⟩

theorem subset_foldl_putIfAbsent (jars : List String) :
    ∀ byJar : List Rewrite, byJar ⊆ jars.foldl putIfAbsent byJar := by
  induction jars with
  | nil => exact fun byJar => List.Subset.refl byJar
  | cons jar jars ih =>
      intro byJar
      rw [List.foldl_cons]
      exact List.Subset.trans (subset_putIfAbsent byJar jar) (ih _)

/-- It adds every jar that does. -/
theorem mem_map_foldl_putIfAbsent {jars : List String} {jar name : String} (hjar : jar ∈ jars)
    (hname : builtinFor jar = some name) :
    ∀ byJar : List Rewrite, jar ∈ (jars.foldl putIfAbsent byJar).map Rewrite.jar := by
  induction jars with
  | nil => exact absurd hjar List.not_mem_nil
  | cons first jars ih =>
      intro byJar
      rw [List.foldl_cons]
      rcases List.mem_cons.mp hjar with rfl | hlater
      · exact List.map_subset _ (subset_foldl_putIfAbsent jars _) (mem_putIfAbsent_self hname)
      · exact ih hlater _

/-- **`detect`**: the requested jars that duplicate a builtin, with their builtins. -/
theorem mem_detect {req : CompileRequest} {rewrite : Rewrite} :
    rewrite ∈ detect req ↔
      rewrite.jar ∈ requestedJars req ∧ builtinFor rewrite.jar = some rewrite.builtin := by
  rw [detect_eq]
  constructor
  · intro h
    exact (mem_foldl_putIfAbsent h).resolve_left List.not_mem_nil
  · rintro ⟨hjar, hbuiltin⟩
    obtain ⟨found, hfound, hsame⟩ := List.mem_map.mp (mem_map_foldl_putIfAbsent hjar hbuiltin [])
    have hname := ((mem_foldl_putIfAbsent hfound).resolve_left List.not_mem_nil).2
    rw [hsame, hbuiltin] at hname
    have heq : found = rewrite := congrArg₂ Rewrite.mk hsame (Option.some.inj hname).symm
    exact heq ▸ hfound

theorem mem_rewrittenJars {req : CompileRequest} {jar : String} :
    jar ∈ (detect req).map Rewrite.jar ↔
      jar ∈ requestedJars req ∧ (builtinFor jar).isSome = true := by
  rw [List.mem_map]
  constructor
  · rintro ⟨rewrite, hrewrite, rfl⟩
    obtain ⟨hjar, hbuiltin⟩ := mem_detect.mp hrewrite
    exact ⟨hjar, by rw [hbuiltin]; rfl⟩
  · rintro ⟨hjar, hsome⟩
    obtain ⟨name, hname⟩ := Option.isSome_iff_exists.mp hsome
    exact ⟨⟨jar, name⟩, mem_detect.mpr ⟨hjar, hname⟩, rfl⟩

theorem mem_builtinNames {req : CompileRequest} {name : String} :
    name ∈ builtinNames (detect req) ↔ ∃ jar ∈ requestedJars req, builtinFor jar = some name := by
  simp only [builtinNames, List.mem_reverse, List.mem_dedup, List.mem_map]
  constructor
  · rintro ⟨rewrite, hrewrite, rfl⟩
    exact ⟨rewrite.jar, mem_detect.mp hrewrite⟩
  · rintro ⟨jar, hjar, hname⟩
    exact ⟨⟨jar, name⟩, mem_detect.mpr ⟨hjar, hname⟩, rfl⟩

theorem nodup_builtinNames (rewrites : List Rewrite) : (builtinNames rewrites).Nodup :=
  List.nodup_reverse.mpr (List.nodup_dedup _)

/-! ## Plain tokens -/

/-- Every token is plain. -/
def ArePlain (tokens : List String) : Prop :=
  ∀ token ∈ tokens, IsPlain token

theorem ArePlain.append {first second : List String} (hfirst : ArePlain first)
    (hsecond : ArePlain second) : ArePlain (first ++ second) :=
  List.forall_mem_append.mpr ⟨hfirst, hsecond⟩

theorem ArePlain.cons {token : String} {tokens : List String} (htoken : IsPlain token)
    (htokens : ArePlain tokens) : ArePlain (token :: tokens) :=
  List.forall_mem_cons.mpr ⟨htoken, htokens⟩

theorem ArePlain.nil : ArePlain [] := nofun

theorem ArePlain.option {flag : String} {value : Option String} (hflag : IsPlain flag)
    (hvalue : ArePlain value.toList) : ArePlain (option flag value) := by
  cases value with
  | none => exact ArePlain.nil
  | some value => exact ArePlain.cons hflag hvalue

/-- A text that neither of the two options begins, nor begins either of them, stays plain
whatever is appended to it. -/
theorem IsPlain.append {text : String} (htext : IsPlain text)
    (hplugin : startsWith "-Xplugin=" text = false)
    (hbuiltin : startsWith "--plugins=" text = false) (rest : String) : IsPlain (text ++ rest) := by
  constructor
  · by_contra h
    rcases startsWith_of_append (eq_true_of_ne_false h) with hstart | hstart
    · exact absurd hstart (htext.notPlugin ▸ Bool.false_ne_true)
    · exact absurd hstart (hplugin ▸ Bool.false_ne_true)
  · by_contra h
    rcases startsWith_of_append (eq_true_of_ne_false h) with hstart | hstart
    · exact absurd hstart (htext.notBuiltin ▸ Bool.false_ne_true)
    · exact absurd hstart (hbuiltin ▸ Bool.false_ne_true)

/-- Joined plain values are plain, for the separators that occur. -/
theorem IsPlain.intercalate {separator : Char} {values : List String}
    (hseparator : separator = ':' ∨ separator = ';' ∨ separator = ',') (hvalues : ArePlain values) :
    IsPlain (separator.toString.intercalate values) := by
  constructor
  · by_contra h
    obtain ⟨value, hvalue, hstart⟩ := startsWith_of_intercalate
      (by rcases hseparator with rfl | rfl | rfl <;> decide) (by decide) (eq_true_of_ne_false h)
    exact absurd hstart ((hvalues value hvalue).notPlugin ▸ Bool.false_ne_true)
  · by_contra h
    obtain ⟨value, hvalue, hstart⟩ := startsWith_of_intercalate
      (by rcases hseparator with rfl | rfl | rfl <;> decide) (by decide) (eq_true_of_ne_false h)
    exact absurd hstart ((hvalues value hvalue).notBuiltin ▸ Bool.false_ne_true)

/-! ## The parts of the command -/

/-- The option that enables builtins. -/
def builtinOption (req : CompileRequest) : List String :=
  let builtins := builtinNames (detect req)
  if builtins = [] then [] else ["--plugins=" ++ ",".intercalate builtins]

/-- The flags for the plugins of the class path. -/
def classpathFlags (req : CompileRequest) : List String :=
  let rewrittenJars := (detect req).map Rewrite.jar
  ((req.compilerPluginClasspath.filter (· ∉ rewrittenJars)).map ("-Xplugin=" ++ ·)).filter
    (· ∉ req.passthroughFlags)

/-- The passthrough flags that are kept. -/
def keptFlags (req : CompileRequest) : List String :=
  req.passthroughFlags.filter fun flag => !isRewrittenXplugin flag

theorem filter_builtinOption (req : CompileRequest) :
    (builtinOption req).filter (startsWith · "--plugins=") = builtinOption req := by
  unfold builtinOption
  dsimp only
  split
  · rfl
  · exact List.filter_cons_of_pos (startsWith_append "--plugins=" _)

theorem not_plugin_of_mem_builtinOption {req : CompileRequest} {token jar : String}
    (h : token ∈ builtinOption req) : pluginJar token ≠ some jar := by
  unfold builtinOption at h
  dsimp only at h
  split at h
  · exact absurd h List.not_mem_nil
  · obtain rfl := List.mem_singleton.mp h
    intro hjar
    have hstart := startsWith_append "-Xplugin=" jar
    rw [← pluginJar_eq_some_iff.mp hjar] at hstart
    rcases startsWith_of_append hstart with h | h
    · exact absurd h (by decide)
    · exact absurd h (by decide)

theorem mem_classpathFlags {req : CompileRequest} {flag : String} :
    flag ∈ classpathFlags req ↔
      (∃ jar ∈ req.compilerPluginClasspath, builtinFor jar = none ∧ "-Xplugin=" ++ jar = flag) ∧
        flag ∉ req.passthroughFlags := by
  have hkept : ∀ jar ∈ req.compilerPluginClasspath,
      jar ∉ (detect req).map Rewrite.jar ↔ builtinFor jar = none := by
    intro jar hjar
    rw [mem_rewrittenJars, not_and, ← Option.not_isSome_iff_eq_none]
    exact ⟨fun h => h (mem_requestedJars.mpr (Or.inl hjar)), fun h _ => h⟩
  rw [classpathFlags, List.mem_filter, List.mem_map, decide_eq_true_eq]
  simp only [List.mem_filter, decide_eq_true_eq]
  refine and_congr_left fun _ => exists_congr fun jar => ?_
  constructor
  · rintro ⟨⟨hjar, hnot⟩, heq⟩
    exact ⟨hjar, (hkept jar hjar).mp hnot, heq⟩
  · rintro ⟨hjar, hnone, heq⟩
    exact ⟨⟨hjar, (hkept jar hjar).mpr hnone⟩, heq⟩

theorem mem_keptFlags {req : CompileRequest} {jar : String} :
    "-Xplugin=" ++ jar ∈ keptFlags req ↔
      "-Xplugin=" ++ jar ∈ req.passthroughFlags ∧ builtinFor jar = none := by
  rw [keptFlags, List.mem_filter, isRewrittenXplugin_append]
  simp

theorem count_classpathFlags {req : CompileRequest} {jar : String} (hnone : builtinFor jar = none)
    (hflag : "-Xplugin=" ++ jar ∉ req.passthroughFlags) :
    (classpathFlags req).count ("-Xplugin=" ++ jar) = req.compilerPluginClasspath.count jar := by
  have hinjective : Function.Injective ("-Xplugin=" ++ · : String → String) :=
    fun _ _ h => String.append_right_inj _ |>.mp h
  have hjar : jar ∉ (detect req).map Rewrite.jar := by
    rw [mem_rewrittenJars, hnone]
    exact fun h => Bool.false_ne_true h.2
  calc (classpathFlags req).count ("-Xplugin=" ++ jar)
      = ((req.compilerPluginClasspath.filter (· ∉ (detect req).map Rewrite.jar)).map
          ("-Xplugin=" ++ ·)).count ("-Xplugin=" ++ jar) :=
        List.count_filter (decide_eq_true hflag)
    _ = (req.compilerPluginClasspath.filter (· ∉ (detect req).map Rewrite.jar)).count jar :=
        List.count_map_of_injective _ _ hinjective jar
    _ = req.compilerPluginClasspath.count jar := List.count_filter (decide_eq_true hjar)

theorem count_keptFlags {req : CompileRequest} {jar : String} (hnone : builtinFor jar = none) :
    (keptFlags req).count ("-Xplugin=" ++ jar) =
      req.passthroughFlags.count ("-Xplugin=" ++ jar) := by
  apply List.count_filter
  rw [isRewrittenXplugin_append, hnone]
  rfl

theorem not_mem_of_arePlain {tokens : List String} (h : ArePlain tokens) (jar : String) :
    "-Xplugin=" ++ jar ∉ tokens := by
  intro hmem
  have hplain := (h _ hmem).notPlugin
  rw [startsWith_append] at hplain
  exact Bool.false_ne_true hplain.symm

section Parts

variable {req : CompileRequest} {first second third last : List String} {jar : String}

/-- No flag of the command loads a jar that duplicates a builtin. -/
theorem builtinFor_eq_none_of_mem {flag : String} (hfirst : ArePlain first)
    (hsecond : ArePlain second) (hthird : ArePlain third) (hlast : ArePlain last)
    (hflag : flag ∈ first ++ builtinOption req ++
      (second ++ classpathFlags req ++ third ++ keptFlags req ++ last))
    (hjar : pluginJar flag = some jar) : builtinFor jar = none := by
  obtain rfl := pluginJar_eq_some_iff.mp hjar
  simp only [List.mem_append, not_mem_of_arePlain hfirst, not_mem_of_arePlain hsecond,
    not_mem_of_arePlain hthird, not_mem_of_arePlain hlast, false_or, or_false] at hflag
  rcases hflag with hbuiltin | hclasspath | hkept
  · exact absurd hjar (not_plugin_of_mem_builtinOption hbuiltin)
  · obtain ⟨⟨jar', _, hnone, heq⟩, _⟩ := mem_classpathFlags.mp hclasspath
    exact (String.append_right_inj _ |>.mp heq) ▸ hnone
  · exact (mem_keptFlags.mp hkept).2

/-- The option for the builtins is the only one of its kind. -/
theorem filter_append_builtinOption (hfirst : ArePlain first) :
    (first ++ builtinOption req).filter (startsWith · "--plugins=") = builtinOption req := by
  have hplain : first.filter (startsWith · "--plugins=") = [] := by
    refine List.filter_eq_nil_iff.mpr fun token htoken => ?_
    rw [(hfirst token htoken).notBuiltin]
    exact Bool.false_ne_true
  rw [List.filter_append, hplain, List.nil_append, filter_builtinOption]

/-- A plugin is loaded by its own flag, or from the classpath if that flag is missing. -/
theorem mem_flags_of_requested (hjar : jar ∈ requestedJars req) (hnone : builtinFor jar = none) :
    "-Xplugin=" ++ jar ∈ classpathFlags req ∨ "-Xplugin=" ++ jar ∈ keptFlags req := by
  by_cases hflag : "-Xplugin=" ++ jar ∈ req.passthroughFlags
  · exact Or.inr (mem_keptFlags.mpr ⟨hflag, hnone⟩)
  · have hclasspath := (mem_requestedJars.mp hjar).resolve_right hflag
    exact Or.inl (mem_classpathFlags.mpr ⟨⟨jar, hclasspath, hnone, rfl⟩, hflag⟩)

/-- The two lists of flags do not repeat each other. -/
theorem count_flags_of_requested (hjar : jar ∈ requestedJars req) (hnone : builtinFor jar = none)
    (hclasspath : req.compilerPluginClasspath.count jar ≤ 1)
    (hpassthrough : req.passthroughFlags.count ("-Xplugin=" ++ jar) ≤ 1) :
    (classpathFlags req).count ("-Xplugin=" ++ jar) + (keptFlags req).count ("-Xplugin=" ++ jar) =
      1 := by
  rw [count_keptFlags hnone]
  by_cases hflag : "-Xplugin=" ++ jar ∈ req.passthroughFlags
  · have hnot : "-Xplugin=" ++ jar ∉ classpathFlags req :=
      fun h => (mem_classpathFlags.mp h).2 hflag
    have hpos := List.count_pos_iff.mpr hflag
    rw [List.count_eq_zero.mpr hnot]
    omega
  · have hmem := (mem_requestedJars.mp hjar).resolve_right hflag
    have hpos := List.count_pos_iff.mpr hmem
    rw [count_classpathFlags hnone hflag, List.count_eq_zero.mpr hflag]
    omega

/-- Whatever plain tokens stand between the flags for plugins, the plugins are kept. -/
theorem KeepsPlugins.of_parts (hfirst : ArePlain first) (hsecond : ArePlain second)
    (hthird : ArePlain third) (hlast : ArePlain last) :
    KeepsPlugins req (first ++ builtinOption req)
      (second ++ classpathFlags req ++ third ++ keptFlags req ++ last) where
  rewritten _ hflag _ hjar := builtinFor_eq_none_of_mem hfirst hsecond hthird hlast hflag hjar
  builtins := by
    refine ⟨builtinNames (detect req), nodup_builtinNames _, fun name => mem_builtinNames, ?_⟩
    rw [filter_append_builtinOption hfirst]
    rfl
  loaded := by
    intro jar hjar hnone
    simp only [List.mem_append]
    -- the option of a jar that is no builtin stands in one of the two groups
    rcases mem_flags_of_requested hjar hnone with hclasspath | hkept
    · exact Or.inl (Or.inl (Or.inl (Or.inr hclasspath)))
    · exact Or.inl (Or.inr hkept)
  once := by
    intro jar hjar hnone hclasspath hpassthrough
    have hcount : ∀ {tokens : List String}, ArePlain tokens →
        tokens.count ("-Xplugin=" ++ jar) = 0 :=
      fun h => List.count_eq_zero.mpr (not_mem_of_arePlain h jar)
    simp only [List.count_append, hcount hsecond, hcount hthird, hcount hlast, zero_add, add_zero]
    exact count_flags_of_requested hjar hnone hclasspath hpassthrough
  others := ⟨second ++ classpathFlags req ++ third, last, rfl⟩

end Parts

/-! ## The command -/

/-- The tokens of the command that come from elsewhere than the plugins are plain. -/
structure PlainParts (host : Host) (req : CompileRequest) (extraSources : List String)
    (usedDepsReport : Option String) : Prop where
  native : ArePlain (nativeOptions host req)
  report : ArePlain (option "--report-used-deps" usedDepsReport)
  emitAbi : ArePlain (option "--emit-abi" req.abiJar)
  output : ∀ output, req.output = some output → ArePlain ["-d", output]
  path : ArePlain (pathArguments host req)
  pluginOptions : ArePlain (req.compilerPluginOptions.flatMap fun opt => ["-P", "plugin:" ++ opt])
  versions : ArePlain (option "-jvm-target" req.jvmTarget ++ option "-api-version" req.apiVersion ++
    option "-language-version" req.languageVersion)
  sources : ArePlain (req.sources ++ extraSources)

theorem ArePlain.joined {separator : Char} {flag : String} {values : List String}
    (hseparator : separator = ':' ∨ separator = ';' ∨ separator = ',') (hflag : IsPlain flag)
    (hvalues : ArePlain values) : ArePlain (joined flag separator.toString values) := by
  unfold ElideCompile.joined
  split
  · exact ArePlain.nil
  · exact ArePlain.cons hflag (ArePlain.cons (IsPlain.intercalate hseparator hvalues) ArePlain.nil)

/-- Pairs of a plain flag and a plain value. -/
theorem ArePlain.flatMap {flag : String} {values : List String} {value : String → String}
    (hflag : IsPlain flag) (hvalues : ∀ opt ∈ values, IsPlain (value opt)) :
    ArePlain (values.flatMap fun opt => [flag, value opt]) := by
  intro token htoken
  obtain ⟨opt, hopt, hpair⟩ := List.mem_flatMap.mp htoken
  rcases List.mem_pair.mp hpair with heq | heq
  · exact heq ▸ hflag
  · exact heq ▸ hvalues opt hopt

theorem processorOptions_plain {host : Host} {req : CompileRequest} {separator : Char}
    (hpath : host.pathSeparator = separator.toString)
    (hseparator : separator = ':' ∨ separator = ';' ∨ separator = ',')
    (hpaths : ArePlain req.processorPath) (hoptions : ArePlain req.processorOptions) :
    ArePlain (processorOptions host req) := by
  unfold processorOptions
  rw [hpath]
  exact (ArePlain.joined hseparator (by decide) hpaths).append
    (ArePlain.flatMap (by decide) hoptions)

theorem nativeOptions_plain {host : Host} {req : CompileRequest}
    (hksp : ArePlain (req.kspSources.toList ++ req.kspClasses.toList))
    (hkapt : ArePlain (req.kaptSources.toList ++ req.kaptClasses.toList ++ req.kaptStubs.toList ++
      req.processors))
    (hjdeps : ArePlain req.jdeps.toList) (hprocessor : ArePlain (processorOptions host req)) :
    ArePlain (nativeOptions host req) := by
  simp only [ArePlain, List.forall_mem_append] at hksp hkapt
  obtain ⟨hkspSources, hkspClasses⟩ := hksp
  obtain ⟨⟨⟨hkaptSources, hkaptClasses⟩, hkaptStubs⟩, hprocessors⟩ := hkapt
  have hlast : ArePlain (if processing req then processorOptions host req else []) := by
    split
    · exact hprocessor
    · exact ArePlain.nil
  refine ArePlain.append ?_ hlast
  split
  · rename_i kspSources heq
    have hvalue : IsPlain kspSources := hkspSources kspSources (by simp [heq])
    exact (ArePlain.cons (by decide) (ArePlain.cons hvalue ArePlain.nil)).append
      (ArePlain.option (by decide) hkspClasses)
  · rename_i kaptSources _ heq
    have hvalue : IsPlain kaptSources := hkaptSources kaptSources (by simp [heq])
    have hcomma : ',' = ':' ∨ ',' = ';' ∨ ',' = ',' := by simp
    have hnames : ArePlain (joined "--processors" "," req.processors) :=
      ArePlain.joined hcomma (by decide) hprocessors
    exact (((ArePlain.cons (by decide) (ArePlain.cons hvalue ArePlain.nil)).append
      (ArePlain.option (by decide) hkaptClasses)).append
        (ArePlain.option (by decide) hkaptStubs)).append hnames
  · refine (ArePlain.option (by decide) hjdeps).append ?_
    intro token htoken
    obtain ⟨label, _, heq⟩ := List.mem_map.mp htoken
    exact heq ▸ IsPlain.append (by decide) (by decide) (by decide) label

theorem pathArguments_plain {host : Host} {req : CompileRequest} {separator : Char}
    (hpath : host.pathSeparator = separator.toString)
    (hseparator : separator = ':' ∨ separator = ';' ∨ separator = ',')
    (hclasspath : ArePlain req.classpath) (hmodule : ArePlain req.moduleName.toList) :
    ArePlain (pathArguments host req) := by
  unfold pathArguments
  rw [hpath]
  refine ((ArePlain.joined hseparator (by decide) hclasspath).append
    (ArePlain.option (by decide) hmodule)).append ?_
  split
  · exact ArePlain.nil
  · exact ArePlain.cons (IsPlain.append (by decide) (by decide) (by decide) _) ArePlain.nil

theorem PlainParts.of_values {host : Host} {req : CompileRequest} {extraSources : List String}
    {usedDepsReport : Option String}
    (hseparator : host.pathSeparator = ":" ∨ host.pathSeparator = ";")
    (hvalues : ArePlain (req.values ++ extraSources ++ usedDepsReport.toList)) :
    PlainParts host req extraSources usedDepsReport := by
  obtain ⟨separator, hpath, hchar⟩ : ∃ separator : Char, host.pathSeparator = separator.toString ∧
      (separator = ':' ∨ separator = ';' ∨ separator = ',') := by
    rcases hseparator with h | h
    · exact ⟨':', h.trans rfl, by simp⟩
    · exact ⟨';', h.trans rfl, by simp⟩
  obtain ⟨hrest, hreport⟩ := List.forall_mem_append.mp hvalues
  obtain ⟨hreq, hextra⟩ := List.forall_mem_append.mp hrest
  -- plain values: a part that only joins or labels them is plain as well
  have hlists : ∀ values ∈ req.valueLists, ArePlain values :=
    fun values hmem value hvalue => hreq value (List.mem_flatten_of_mem hmem hvalue)
  rw [CompileRequest.valueLists] at hlists
  simp only [List.forall_mem_cons] at hlists
  obtain ⟨houtput, habi, hjdeps, -, hmodule, -, hsources, -, hclasspath, -, -, -, -, hprocessors,
    hprocessorPath, -, -, -, -, hapi, hlanguage, hkapt, hkaptClasses, hkaptStubs, hksp, hkspClasses,
    hprocessorOptions, hjvm, -⟩ := hlists
  have hprocessor : ArePlain (processorOptions host req) :=
    processorOptions_plain hpath hchar hprocessorPath hprocessorOptions
  refine
    { native := nativeOptions_plain (hksp.append hkspClasses)
        (((hkapt.append hkaptClasses).append hkaptStubs).append hprocessors) hjdeps hprocessor
      report := ArePlain.option (by decide) hreport
      emitAbi := ArePlain.option (by decide) habi
      output := ?_
      path := pathArguments_plain hpath hchar hclasspath hmodule
      pluginOptions := ArePlain.flatMap (by decide)
        fun opt _ => IsPlain.append (by decide) (by decide) (by decide) opt
      versions := ((ArePlain.option (by decide) hjvm).append
        (ArePlain.option (by decide) hapi)).append (ArePlain.option (by decide) hlanguage)
      sources := hsources.append hextra }
  intro output heq
  exact ArePlain.cons (by decide) (ArePlain.cons (houtput output (by simp [heq])) ArePlain.nil)

/-- What a native command says of its outputs: `--emit-abi` and `-d`. -/
theorem plan_native_outputs {host : Host} {req : CompileRequest} {elidePath : String}
    {extraSources : List String} {usedDepsReport : Option String} {kotlinc : List String}
    {others : List (List String)} (hparts : PlainParts host req extraSources usedDepsReport)
    (hplan : plan host req elidePath extraSources usedDepsReport true = .ok (kotlinc :: others)) :
    ∃ outputs, ArePlain outputs ∧ kotlinc = [elidePath, "kotlinc"] ++ nativeOptions host req ++
      commonOptions req usedDepsReport ++ (outputs ++ pathArguments host req) ++
        compilerArguments req extraSources := by
  -- with processing the command writes no jar, so there is no output option
  by_cases hprocessing : processing req = true
  · rw [plan_of_processing hprocessing] at hplan
    obtain ⟨rfl, -⟩ := List.cons.inj (Except.ok.inj hplan)
    exact ⟨[], ArePlain.nil, by simp [remainder]⟩
  · rw [plan, abiArguments_native, if_neg hprocessing] at hplan
    have hemit : ArePlain (if (true && !processing req) = true then option "--emit-abi" req.abiJar
        else []) := by
      split
      · exact hparts.emitAbi
      · exact ArePlain.nil
    cases houtput : req.output with
    | none =>
        rw [houtput] at hplan
        cases hplan
    | some output =>
        rw [houtput] at hplan
        obtain ⟨rfl, -⟩ := List.cons.inj (Except.ok.inj hplan)
        exact ⟨_, hemit.append (hparts.output output houtput), by simp⟩

/-- **Plugins in native mode.**  Where no other value of the request looks like one of the two
options, the command loads every plugin once and enables every builtin once. -/
theorem plan_keeps_plugins (host : Host) (req : CompileRequest) (elidePath : String)
    (extraSources : List String) (usedDepsReport : Option String) (kotlinc : List String)
    (others : List (List String))
    (hseparator : host.pathSeparator = ":" ∨ host.pathSeparator = ";")
    (hvalues : ∀ value ∈ req.values ++ extraSources ++ usedDepsReport.toList, IsPlain value)
    (hplan : plan host req elidePath extraSources usedDepsReport true = .ok (kotlinc :: others)) :
    ∃ options arguments, kotlinc = [elidePath, "kotlinc"] ++ options ++ "--" :: arguments ∧
      KeepsPlugins req options arguments := by
  have hparts := PlainParts.of_values hseparator hvalues
  obtain ⟨outputs, houtputs, rfl⟩ := plan_native_outputs hparts hplan
  have hkeeps : KeepsPlugins req _ _ :=
    KeepsPlugins.of_parts (hparts.native.append hparts.report) (houtputs.append hparts.path)
      (hparts.pluginOptions.append hparts.versions) hparts.sources
  refine ⟨_, _, ?_, hkeeps⟩
  simp only [commonOptions, compilerArguments, builtinOption, classpathFlags, keptFlags,
    List.append_assoc, List.cons_append, List.nil_append]

/-- A builtin on the class path, a plugin in both lists, and a builtin among the flags. -/
def pluginRequest : CompileRequest where
  output := some "out.jar"
  sources := ["A.kt"]
  compilerPluginClasspath := ["kotlin-serialization-compiler-plugin.jar", "dagger.jar"]
  passthroughFlags := ["-Xplugin=dagger.jar", "-progressive", "-Xplugin=/m/metro-compiler.jar"]

theorem plan_keeps_plugins_sample :
    let kotlinc := ["elide", "kotlinc", "--plugins=serialization,metro", "--", "-d", "out.jar",
      "-Xplugin=dagger.jar", "-progressive", "A.kt"]
    ∃ options arguments, kotlinc = ["elide", "kotlinc"] ++ options ++ "--" :: arguments ∧
      KeepsPlugins pluginRequest options arguments := by
  apply plan_keeps_plugins {} pluginRequest "elide" [] none _ []
  · exact Or.inl rfl
  · decide
  · decide +kernel

end RulesElide.KotlinBuilder
