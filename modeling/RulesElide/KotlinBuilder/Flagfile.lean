import RulesElide.Platform.Strings

/-!
# The flagfile

`Flagfile.parse` reads a flagfile as a sequence of groups: a token that begins with two
dashes is a flag, and the tokens after it, up to the next flag, are its values.  A flag that
occurs again goes on with the values it has.  `readFlags_groups` says what the map of the
loop holds for a file that is given as a list of groups, and `parse_of_writes` that nothing else
about the layout of the file matters.
-/

namespace RulesElide.KotlinBuilder

/-- `Map<String, List<String>>`.  The code never asks for the order of the keys. -/
abbrev FlagMap := String → Option (List String)

/-- `CompileRequest`. -/
structure CompileRequest where
  output : Option String := none
  abiJar : Option String := none
  jdeps : Option String := none
  srcjar : Option String := none
  moduleName : Option String := none
  targetLabel : Option String := none
  sources : List String := []
  sourceJars : List String := []
  classpath : List String := []
  directDependencies : List String := []
  friendPaths : List String := []
  passthroughFlags : List String := []
  javacOpts : List String := []
  strictKotlinDeps : String := "off"
  processors : List String := []
  processorPath : List String := []
  compilerPluginClasspath : List String := []
  compilerPluginOptions : List String := []
  stubsPluginClasspath : List String := []
  stubsPluginOptions : List String := []
  apiVersion : Option String := none
  languageVersion : Option String := none
  kaptSources : Option String := none
  kaptClasses : Option String := none
  kaptStubs : Option String := none
  kspSources : Option String := none
  kspClasses : Option String := none
  processorOptions : List String := []
  jvmTarget : Option String := none
  raw : FlagMap := fun _ => none

namespace Flagfile

/-! ## The code -/

/-- `map.getOrPut(flag) { mutableListOf() }`. -/
def getOrPut (map : FlagMap) (flag : String) : FlagMap :=
  Function.update map flag (some ((map flag).getD []))

/-- `cur?.add(token)`: `cur` is the list of the last flag. -/
def add (map : FlagMap) (flag token : String) : FlagMap :=
  Function.update map flag (some ((map flag).getD [] ++ [token]))

/-- One round of the loop of `parse`; the second component says whose list `cur` is. -/
def readToken (state : FlagMap × Option String) (token : String) : FlagMap × Option String :=
  if startsWith token "--" then (getOrPut state.1 token, some token)
  else match state.2 with
    | none => state
    | some flag => (add state.1 flag token, some flag)

/-- The map after the loop of `parse`. -/
def readFlags (tokens : List String) : FlagMap :=
  (tokens.foldl readToken (fun _ => none, none)).1

def first (map : FlagMap) (flag : String) : Option String :=
  (map flag).bind List.head?

def list (map : FlagMap) (flag : String) : List String :=
  (map flag).getD []

/-- `values.ifEmpty { other }`, for a list. -/
def listIfEmpty (values other : List String) : List String :=
  if values = [] then other else values

/-- `parse`. -/
def parse (tokens : List String) : CompileRequest :=
  let map := readFlags tokens
  { output := first map "--output"
    abiJar := first map "--abi_jar"
    jdeps := first map "--kotlin_output_jdeps"
    srcjar := first map "--kotlin_output_srcjar"
    moduleName := (first map "--kotlin_module_name").orElse fun _ => first map "--module_name"
    targetLabel := first map "--target_label"
    sources := list map "--sources"
    sourceJars := list map "--source_jars"
    classpath := listIfEmpty (list map "--classpath") (list map "--libraries")
    directDependencies := list map "--direct_dependencies"
    friendPaths := list map "--kotlin_friend_paths"
    passthroughFlags := list map "--kotlin_passthrough_flags"
    javacOpts := list map "--javacopts"
    strictKotlinDeps := (first map "--strict_kotlin_deps").getD "off"
    processors := list map "--processors"
    processorPath := listIfEmpty (list map "--processorpath") (list map "--processor_classpath")
    compilerPluginClasspath := list map "--compiler_plugin_classpath"
    compilerPluginOptions := list map "--compiler_plugin_options"
    stubsPluginClasspath := list map "--stubs_plugin_classpath"
    stubsPluginOptions := list map "--stubs_plugin_options"
    apiVersion := (first map "--kotlin_api_version").orElse fun _ => first map "--api_version"
    languageVersion :=
      (first map "--kotlin_language_version").orElse fun _ => first map "--language_version"
    kaptSources := first map "--generated_java_srcjar"
    kaptClasses := first map "--kapt_generated_class_jar"
    kaptStubs := first map "--kapt_generated_stub_jar"
    kspSources := first map "--generated_sources_output"
    kspClasses := first map "--generated_classes_output"
    processorOptions := list map "--ksp_options" ++
      ((list map "--javacopts").filter (startsWith · "-A")).map (removePrefix · "-A")
    jvmTarget := (first map "--kotlin_jvm_target").orElse fun _ => first map "--jvm_target"
    raw := map }

/-! ## Groups -/

/-- A flag and its values. -/
structure Group where
  flag : String
  values : List String
  isFlag : startsWith flag "--" = true
  areValues : ∀ value ∈ values, startsWith value "--" = false

def Group.tokens (group : Group) : List String :=
  group.flag :: group.values

/-- The values of a flag, from all its groups. -/
def valuesOf (flag : String) (groups : List Group) : List String :=
  groups.flatMap fun group => if group.flag = flag then group.values else []

theorem valuesOf_append (flag : String) (groups groups' : List Group) :
    valuesOf flag (groups ++ groups') = valuesOf flag groups ++ valuesOf flag groups' :=
  List.flatMap_append

theorem valuesOf_of_not_mem {flag : String} {groups : List Group}
    (h : flag ∉ groups.map Group.flag) : valuesOf flag groups = [] := by
  apply List.flatMap_eq_nil_iff.mpr
  intro group hgroup
  apply if_neg
  rintro rfl
  exact h (List.mem_map_of_mem hgroup)

/-- Reading values adds them to the list of the last flag. -/
theorem foldl_readToken_values {values : List String}
    (hvalues : ∀ value ∈ values, startsWith value "--" = false) (flag : String) :
    ∀ (map : FlagMap) (present : List String), map flag = some present →
      values.foldl readToken (map, some flag) =
        (Function.update map flag (some (present ++ values)), some flag) := by
  induction values with
  | nil =>
      intro map present hpresent
      rw [List.append_nil, ← hpresent, Function.update_eq_self]
      rfl
  | cons value values ih =>
      intro map present hpresent
      have hvalue := hvalues value List.mem_cons_self
      -- no dashes: the value joins the list of the flag that was read last
      have hadd : readToken (map, some flag) value =
          (Function.update map flag (some (present ++ [value])), some flag) := by
        rw [readToken, hvalue, if_neg Bool.false_ne_true]
        simp only [add, hpresent, Option.getD_some]
      rw [List.foldl_cons, hadd,
        ih (fun other hmem => hvalues other (List.mem_cons_of_mem _ hmem)) _
        (present ++ [value]) (Function.update_self _ _ _)]
      rw [Function.update_idem, List.append_assoc, List.singleton_append]

theorem foldl_readToken_group (group : Group) (map : FlagMap) (last : Option String) :
    group.tokens.foldl readToken (map, last) =
      (Function.update map group.flag (some ((map group.flag).getD [] ++ group.values)),
        some group.flag) := by
  have hflag : readToken (map, last) group.flag = (getOrPut map group.flag, some group.flag) := by
    rw [readToken, if_pos group.isFlag]
  have hpresent : getOrPut map group.flag group.flag = some ((map group.flag).getD []) :=
    Function.update_self _ _ _
  calc group.tokens.foldl readToken (map, last)
      = group.values.foldl readToken (getOrPut map group.flag, some group.flag) := by
        rw [Group.tokens, List.foldl_cons, hflag]
    _ = (Function.update (getOrPut map group.flag) group.flag
          (some ((map group.flag).getD [] ++ group.values)), some group.flag) :=
        foldl_readToken_values group.areValues group.flag _ _ hpresent
    _ = _ := by rw [getOrPut, Function.update_idem]

/-- What the map holds for a flag after groups were read. -/
theorem foldl_readToken_groups (flag : String) (groups : List Group) :
    ∀ (map : FlagMap) (last : Option String),
      ((groups.flatMap Group.tokens).foldl readToken (map, last)).1 flag =
        if flag ∈ groups.map Group.flag then some ((map flag).getD [] ++ valuesOf flag groups)
        else map flag := by
  induction groups with
  | nil =>
      intro map last
      rw [if_neg (by simp)]
      rfl
  | cons group groups ih =>
      intro map last
      rw [List.flatMap_cons, List.foldl_append, foldl_readToken_group, ih]
      -- a flag that comes back goes on with its list
      rcases eq_or_ne group.flag flag with rfl | hne
      · by_cases hagain : group.flag ∈ groups.map Group.flag
        · simp [valuesOf, hagain]
        · have hnil := valuesOf_of_not_mem hagain
          simp only [valuesOf] at hnil
          simp [valuesOf, hagain, hnil]
      · simp [valuesOf, hne, hne.symm]

theorem readFlags_groups (groups : List Group) (flag : String) :
    readFlags (groups.flatMap Group.tokens) flag =
      if flag ∈ groups.map Group.flag then some (valuesOf flag groups) else none := by
  rw [readFlags, foldl_readToken_groups]
  rfl

@[simp] theorem list_groups (groups : List Group) (flag : String) :
    list (readFlags (groups.flatMap Group.tokens)) flag = valuesOf flag groups := by
  rw [list, readFlags_groups]
  split
  · rfl
  · rename_i habsent
    rw [valuesOf_of_not_mem habsent]
    rfl

@[simp] theorem first_groups (groups : List Group) (flag : String) :
    first (readFlags (groups.flatMap Group.tokens)) flag = (valuesOf flag groups).head? := by
  rw [first, readFlags_groups]
  split
  · rfl
  · rename_i habsent
    rw [valuesOf_of_not_mem habsent]
    rfl

/-- From its first flag on, any list of tokens is a list of groups. -/
theorem exists_groups (tokens : List String) :
    ∃ groups : List Group,
      tokens.dropWhile (fun token => !startsWith token "--") = groups.flatMap Group.tokens ∧
        ∀ group ∈ groups, group.flag ∈ tokens := by
  induction tokens with
  | nil => exact ⟨[], rfl, nofun⟩
  | cons token tokens ih =>
      obtain ⟨groups, hgroups, hflags⟩ := ih
      cases htoken : startsWith token "--" with
      | false =>
          refine ⟨groups, ?_, fun group hgroup => List.mem_cons_of_mem _ (hflags group hgroup)⟩
          rw [List.dropWhile_cons_of_pos (by rw [htoken]; rfl), hgroups]
      | true =>
          -- the flag and the tokens up to the next flag are the first group
          have hvalues : ∀ value ∈ tokens.takeWhile (fun token => !startsWith token "--"),
              startsWith value "--" = false := by
            intro value hvalue
            simpa using List.mem_takeWhile_imp hvalue
          refine ⟨⟨token, _, htoken, hvalues⟩ :: groups, ?_, ?_⟩
          · rw [List.dropWhile_cons_of_neg (by rw [htoken]; simp), List.flatMap_cons, ← hgroups,
              Group.tokens, List.cons_append, List.takeWhile_append_dropWhile]
          · intro group hgroup
            rcases List.mem_cons.mp hgroup with rfl | hrest
            · exact List.mem_cons_self
            · exact List.mem_cons_of_mem _ (hflags group hrest)

/-! ## Layouts -/

/-- The groups write a map: every flag of the map occurs, and has its values in order. -/
structure Writes (map : FlagMap) (groups : List Group) : Prop where
  flags : ∀ flag, (map flag).isSome ↔ flag ∈ groups.map Group.flag
  values : ∀ flag values, map flag = some values → valuesOf flag groups = values

theorem Writes.readFlags_eq {map : FlagMap} {groups : List Group} (h : Writes map groups) :
    readFlags (groups.flatMap Group.tokens) = map := by
  funext flag
  rw [readFlags_groups]
  cases hflag : map flag with
  | none =>
      refine if_neg fun hmem => ?_
      have hsome := (h.flags flag).mpr hmem
      rw [hflag] at hsome
      cases hsome
  | some values =>
      have hmem := (h.flags flag).mp (by rw [hflag, Option.isSome_some])
      rw [if_pos hmem, h.values flag values hflag]

/-- The groups of each flag come in the same order. -/
def SameGroups (groups groups' : List Group) : Prop :=
  ∀ flag, (groups.filter fun group => group.flag = flag) =
    groups'.filter fun group => group.flag = flag

theorem valuesOf_filter (flag : String) (groups : List Group) :
    valuesOf flag (groups.filter fun group => group.flag = flag) = valuesOf flag groups := by
  induction groups with
  | nil => rfl
  | cons group groups ih =>
      rw [show group :: groups = [group] ++ groups from rfl, List.filter_append, valuesOf_append,
        valuesOf_append, ih]
      by_cases hflag : group.flag = flag
      · rw [List.filter_cons_of_pos (by simpa using hflag), List.filter_nil]
      · rw [List.filter_cons_of_neg (by simpa using hflag), List.filter_nil]
        simp [valuesOf, hflag]

theorem mem_flags_iff {flag : String} {groups : List Group} :
    flag ∈ groups.map Group.flag ↔ (groups.filter fun group => group.flag = flag) ≠ [] := by
  simp [List.filter_eq_nil_iff]

/-- Groups of different flags may change their places. -/
theorem SameGroups.readFlags_eq {groups groups' : List Group} (h : SameGroups groups groups') :
    readFlags (groups.flatMap Group.tokens) = readFlags (groups'.flatMap Group.tokens) := by
  funext flag
  simp only [readFlags_groups, mem_flags_iff]
  rw [h flag, ← valuesOf_filter flag groups, h flag, valuesOf_filter]

/-- Two requests from one map are the same. -/
theorem parse_congr {tokens tokens' : List String} (h : readFlags tokens = readFlags tokens') :
    parse tokens = parse tokens' := by
  unfold parse
  rw [h]

/-! ## The fields -/

/-- The lists that hold the values of one flag. -/
def listFields : List ((CompileRequest → List String) × String) :=
  [(CompileRequest.sources, "--sources"), (CompileRequest.sourceJars, "--source_jars"),
    (CompileRequest.directDependencies, "--direct_dependencies"),
    (CompileRequest.friendPaths, "--kotlin_friend_paths"),
    (CompileRequest.passthroughFlags, "--kotlin_passthrough_flags"),
    (CompileRequest.javacOpts, "--javacopts"), (CompileRequest.processors, "--processors"),
    (CompileRequest.compilerPluginClasspath, "--compiler_plugin_classpath"),
    (CompileRequest.compilerPluginOptions, "--compiler_plugin_options"),
    (CompileRequest.stubsPluginClasspath, "--stubs_plugin_classpath"),
    (CompileRequest.stubsPluginOptions, "--stubs_plugin_options")]

/-- The lists with a second flag, whose values count when the first one has none. -/
def fallbackFields : List ((CompileRequest → List String) × String × String) :=
  [(CompileRequest.classpath, "--classpath", "--libraries"),
    (CompileRequest.processorPath, "--processorpath", "--processor_classpath")]

/-- The fields with a single value, and the spellings of their flags. -/
def scalarFields : List ((CompileRequest → Option String) × List String) :=
  [(CompileRequest.output, ["--output"]), (CompileRequest.abiJar, ["--abi_jar"]),
    (CompileRequest.jdeps, ["--kotlin_output_jdeps"]),
    (CompileRequest.srcjar, ["--kotlin_output_srcjar"]),
    (CompileRequest.moduleName, ["--kotlin_module_name", "--module_name"]),
    (CompileRequest.targetLabel, ["--target_label"]),
    (CompileRequest.apiVersion, ["--kotlin_api_version", "--api_version"]),
    (CompileRequest.languageVersion, ["--kotlin_language_version", "--language_version"]),
    (CompileRequest.kaptSources, ["--generated_java_srcjar"]),
    (CompileRequest.kaptClasses, ["--kapt_generated_class_jar"]),
    (CompileRequest.kaptStubs, ["--kapt_generated_stub_jar"]),
    (CompileRequest.kspSources, ["--generated_sources_output"]),
    (CompileRequest.kspClasses, ["--generated_classes_output"]),
    (CompileRequest.jvmTarget, ["--kotlin_jvm_target", "--jvm_target"])]

/-- The first value of the first spelling that has one. -/
def firstOf (map : FlagMap) (spellings : List String) : Option String :=
  spellings.findSome? (first map)

@[simp] theorem firstOf_singleton (map : FlagMap) (spelling : String) :
    firstOf map [spelling] = first map spelling := by
  rw [firstOf, List.findSome?_singleton]

@[simp] theorem firstOf_pair (map : FlagMap) (spelling other : String) :
    firstOf map [spelling, other] = (first map spelling).or (first map other) := by
  unfold firstOf
  cases h : first map spelling with
  | none => rw [List.findSome?_cons_of_isNone (by rw [h]; rfl), List.findSome?_singleton,
      Option.none_or]
  | some value => rw [List.findSome?_cons_of_isSome (by rw [h]; rfl), h, Option.some_or]

/-- A request whose fields are the values of a map, flag by flag. -/
structure Reads (map : FlagMap) (req : CompileRequest) : Prop where
  raw : req.raw = map
  lists : ∀ entry ∈ listFields, entry.1 req = (map entry.2).getD []
  fallbacks : ∀ entry ∈ fallbackFields, entry.1 req =
    listIfEmpty ((map entry.2.1).getD []) ((map entry.2.2).getD [])
  processorOptions : req.processorOptions = (map "--ksp_options").getD [] ++
    (((map "--javacopts").getD []).filter (startsWith · "-A")).map (removePrefix · "-A")
  scalars : ∀ entry ∈ scalarFields, entry.1 req = firstOf map entry.2
  strictKotlinDeps : req.strictKotlinDeps = (firstOf map ["--strict_kotlin_deps"]).getD "off"

theorem parse_reads (tokens : List String) : Reads (readFlags tokens) (parse tokens) where
  raw := rfl
  lists := by
    simp [listFields, parse, list]
  fallbacks := by
    simp [fallbackFields, parse, list]
  processorOptions := rfl
  scalars := by
    simp [scalarFields, parse]
  strictKotlinDeps := by
    rw [firstOf_singleton]
    rfl

/-- **Parsing is grouping.**  However a map is written down, `parse` reads it back: the raw map is
this map, every field holds the values of its flag, and groups of different flags may change their
places. -/
theorem parse_of_writes (map : FlagMap) (groups : List Group) (h : Writes map groups) :
    Reads map (parse (groups.flatMap Group.tokens)) ∧
      ∀ groups', SameGroups groups groups' →
        parse (groups'.flatMap Group.tokens) = parse (groups.flatMap Group.tokens) := by
  constructor
  · have hreads := parse_reads (groups.flatMap Group.tokens)
    rwa [h.readFlags_eq] at hreads
  · exact fun groups' hsame => parse_congr hsame.readFlags_eq.symm

/-- The sources in two groups, and a flag without values. -/
def sampleGroups : List Group :=
  [⟨"--sources", ["A.kt"], by decide, by decide⟩, ⟨"--output", ["out.jar"], by decide, by decide⟩,
    ⟨"--sources", ["B.kt"], by decide, by decide⟩, ⟨"--javacopts", [], by decide, by decide⟩]

def sampleFlags : FlagMap := fun flag =>
  if flag = "--sources" then some ["A.kt", "B.kt"]
  else if flag = "--output" then some ["out.jar"]
  else if flag = "--javacopts" then some []
  else none

theorem sample_writes : Writes sampleFlags sampleGroups where
  flags flag := by
    unfold sampleFlags sampleGroups
    split_ifs <;> simp_all
  values flag values h := by
    unfold sampleFlags at h
    split_ifs at h with hsources houtput hjavacopts
    · rw [← Option.some.inj h, hsources]
      decide
    · rw [← Option.some.inj h, houtput]
      decide
    · rw [← Option.some.inj h, hjavacopts]
      decide

theorem parse_of_writes_sample :
    Reads sampleFlags (parse (sampleGroups.flatMap Group.tokens)) ∧
      ∀ groups', SameGroups sampleGroups groups' →
        parse (groups'.flatMap Group.tokens) = parse (sampleGroups.flatMap Group.tokens) :=
  parse_of_writes sampleFlags sampleGroups sample_writes

end Flagfile

end RulesElide.KotlinBuilder
