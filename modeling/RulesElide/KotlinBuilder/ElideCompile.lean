import RulesElide.KotlinBuilder.Flagfile

/-!
# Planning a compilation

`BuiltinPlugins` and `ElideCompile.plan`: the commands a `CompileRequest` is turned into.
-/

namespace RulesElide.KotlinBuilder

/-- What the builder asks its machine for. -/
structure Host where
  /-- `File.pathSeparator`. -/
  pathSeparator : String := ":"
  isDirectory : String → Bool := fun _ => false
  isFile : String → Bool := fun _ => false
  /-- The names in a directory, in the order of `listFiles`. -/
  listFiles : String → Option (List String) := fun _ => none

/-! ## `java.io.File` -/

/-- `File(path)` on a Unix file system. -/
structure File where
  isAbsolute : Bool
  names : List String
  deriving DecidableEq

namespace File

def of (path : String) : File where
  isAbsolute := startsWith path "/"
  names := ((path.toList.splitOn '/').map String.ofList).filter (· ≠ "")

def path (file : File) : String :=
  (if file.isAbsolute then "/" else "") ++ "/".intercalate file.names

def parentFile (file : File) : Option File :=
  match file.names with
  | [] => none
  | [_] => if file.isAbsolute then some { file with names := [] } else none
  | names => some { file with names := names.dropLast }

def resolve (file : File) (relative : List String) : File :=
  { file with names := file.names ++ relative }

end File

/-! ## Builtin plugins -/

namespace BuiltinPlugins

/-- `MAP`. -/
def map : List (String × String) :=
  [("serialization-compiler-plugin", "serialization"),
    ("power-assert-compiler-plugin", "power-assert"),
    ("atomicfu-compiler-plugin", "atomicfu"),
    ("metro-compiler", "metro")]

structure Rewrite where
  jar : String
  builtin : String
  deriving DecidableEq

def basename (path : String) : String :=
  substringAfterLast (substringAfterLast path '/') '\\'

def builtinFor (jar : String) : Option String :=
  (map.find? fun entry => contains (basename jar) entry.1).map Prod.snd

def isRewrittenXplugin (flag : String) : Bool :=
  startsWith flag "-Xplugin=" && (builtinFor (removePrefix flag "-Xplugin=")).isSome

/-- The loop of `detect`: the first rewrite of a jar is the one that is kept. -/
def putIfAbsent (byJar : List Rewrite) (jar : String) : List Rewrite :=
  match builtinFor jar with
  | none => byJar
  | some name => if jar ∈ byJar.map Rewrite.jar then byJar else byJar ++ [⟨jar, name⟩]

def detect (req : CompileRequest) : List Rewrite :=
  let passthroughJars :=
    (req.passthroughFlags.filter (startsWith · "-Xplugin=")).map (removePrefix · "-Xplugin=")
  (req.compilerPluginClasspath ++ passthroughJars).foldl putIfAbsent []

/-- `rewrites.map { it.builtin }.distinct()`. -/
def builtinNames (rewrites : List Rewrite) : List String :=
  (rewrites.map Rewrite.builtin).reverse.dedup.reverse

end BuiltinPlugins

/-! ## The plan -/

namespace ElideCompile

/-- `findJvmAbiGenJar`. -/
def findJvmAbiGenJar (host : Host) (elidePath : String) : Option File := do
  let distRoot ← (← (File.of elidePath).parentFile).parentFile
  let kotlinDir := distRoot.resolve ["lib", "resources", "kotlin"]
  if host.isDirectory kotlinDir.path then
    let names ← host.listFiles kotlinDir.path
    let versionDir ← (names.map fun name => kotlinDir.resolve [name]).find? fun directory =>
      host.isDirectory directory.path
    let jar := versionDir.resolve ["lib", "jvm-abi-gen.jar"]
    if host.isFile jar.path then some jar else none
  else none

/-- `value?.let { kt += listOf(flag, it) }`. -/
def option (flag : String) (value : Option String) : List String :=
  match value with
  | none => []
  | some value => [flag, value]

/-- `if (values.isNotEmpty()) kt += listOf(flag, values.joinToString(separator))`. -/
def joined (flag separator : String) (values : List String) : List String :=
  if values = [] then [] else [flag, separator.intercalate values]

def processing (req : CompileRequest) : Bool :=
  req.kaptSources.isSome || req.kspSources.isSome

/-- The options for the processors of a processing request. -/
def processorOptions (host : Host) (req : CompileRequest) : List String :=
  joined "--processorpath" host.pathSeparator req.processorPath ++
    req.processorOptions.flatMap fun processorOption => ["--processor-option", processorOption]

/-- The options in front of the separator that native mode adds. -/
def nativeOptions (host : Host) (req : CompileRequest) : List String :=
  let outputs := match req.kspSources, req.kaptSources with
    | some kspSources, _ =>
        ["--ksp-sources", kspSources] ++ option "--ksp-classes" req.kspClasses
    | none, some kaptSources =>
        ["--kapt-sources", kaptSources] ++ option "--kapt-classes" req.kaptClasses ++
          option "--kapt-stubs" req.kaptStubs ++ joined "--processors" "," req.processors
    | none, none =>
        option "--jdeps" req.jdeps ++ req.targetLabel.toList.map ("--target-label=" ++ ·)
  outputs ++ if processing req then processorOptions host req else []

/-- The other options in front of the separator, and the separator. -/
def commonOptions (req : CompileRequest) (usedDepsReport : Option String) : List String :=
  let builtins := BuiltinPlugins.builtinNames (BuiltinPlugins.detect req)
  option "--report-used-deps" usedDepsReport ++
    (if builtins = [] then [] else ["--plugins=" ++ ",".intercalate builtins]) ++ ["--"]

/-- The arguments of the `jvm-abi-gen` plugin, in legacy mode. -/
def abiArguments (host : Host) (req : CompileRequest) (elidePath : String) (nativeTools : Bool) :
    Except Throwable (List String) :=
  match req.abiJar with
  | none => .ok []
  | some abiJarPath =>
      if nativeTools then .ok []
      else
        let distRoot := (File.of elidePath).parentFile.bind File.parentFile
        match findJvmAbiGenJar host elidePath with
        | none => .error (.illegalState
            ("abiJar requested (" ++ abiJarPath ++ ") but jvm-abi-gen.jar not found under the " ++
              "Elide distribution at " ++ (distRoot.map File.path).getD "null" ++
              "; cannot produce the ABI jar"))
        | some pluginJar => .ok ["-Xplugin=" ++ pluginJar.path, "-P",
            "plugin:org.jetbrains.kotlin.jvm.abi:outputDir=" ++ abiJarPath]

/-- The arguments in front of the `jvm-abi-gen` plugin: paths and names. -/
def pathArguments (host : Host) (req : CompileRequest) : List String :=
  joined "-classpath" host.pathSeparator req.classpath ++ option "-module-name" req.moduleName ++
    (if req.friendPaths = [] then [] else ["-Xfriend-paths=" ++ ",".intercalate req.friendPaths])

/-- The arguments behind it: plugins, versions, flags and sources. -/
def compilerArguments (req : CompileRequest) (extraSources : List String) : List String :=
  let rewrittenJars := (BuiltinPlugins.detect req).map BuiltinPlugins.Rewrite.jar
  let pluginFlags := (req.compilerPluginClasspath.filter (· ∉ rewrittenJars)).map ("-Xplugin=" ++ ·)
  pluginFlags.filter (· ∉ req.passthroughFlags) ++
    (req.compilerPluginOptions.flatMap fun opt => ["-P", "plugin:" ++ opt]) ++
    option "-jvm-target" req.jvmTarget ++ option "-api-version" req.apiVersion ++
    option "-language-version" req.languageVersion ++
    (req.passthroughFlags.filter fun flag => !BuiltinPlugins.isRewrittenXplugin flag) ++
    req.sources ++ extraSources

/-- The command that packs the source jar. -/
def srcjarCommands (req : CompileRequest) (elidePath : String) : List (List String) :=
  match req.srcjar with
  | none => []
  | some srcjar =>
      if processing req then []
      else [[elidePath, "jar", "--", "--create", "--date=1980-01-01T00:00:02Z", "--file", srcjar] ++
        req.sources]

/-- `plan`. -/
def plan (host : Host) (req : CompileRequest) (elidePath : String) (extraSources : List String)
    (usedDepsReport : Option String) (nativeTools : Bool) :
    Except Throwable (List (List String)) := do
  let options := if nativeTools then nativeOptions host req else []
  -- a processing request has no jar of its own
  let emitAbi := if nativeTools && !processing req then option "--emit-abi" req.abiJar else []
  let output ←
    if processing req then .ok []
    else match req.output with
      | some output => .ok ["-d", output]
      | none => .error (.illegalState "--output required")
  let abi ← abiArguments host req elidePath nativeTools
  let kt := [elidePath, "kotlinc"] ++ options ++ commonOptions req usedDepsReport ++ emitAbi ++
    output ++ pathArguments host req ++ abi ++ compilerArguments req extraSources
  .ok (kt :: srcjarCommands req elidePath)

/-! ## Processing requests in native mode -/

/-- What follows the native options in the command of a processing request. -/
def remainder (host : Host) (req : CompileRequest) (extraSources : List String)
    (usedDepsReport : Option String) : List String :=
  commonOptions req usedDepsReport ++ pathArguments host req ++ compilerArguments req extraSources

variable {host : Host} {req : CompileRequest} {elidePath : String} {extraSources : List String}
  {usedDepsReport : Option String}

theorem nativeOptions_of_ksp (host : Host) {kspSources : String}
    (h : req.kspSources = some kspSources) :
    nativeOptions host req = "--ksp-sources" :: kspSources ::
      (option "--ksp-classes" req.kspClasses ++ processorOptions host req) := by
  simp [nativeOptions, processing, h]

theorem nativeOptions_of_kapt (host : Host) {kaptSources : String}
    (hksp : req.kspSources = none) (hkapt : req.kaptSources = some kaptSources) :
    nativeOptions host req = "--kapt-sources" :: kaptSources ::
      (option "--kapt-classes" req.kaptClasses ++ option "--kapt-stubs" req.kaptStubs ++
        joined "--processors" "," req.processors ++ processorOptions host req) := by
  simp [nativeOptions, processing, hksp, hkapt]

theorem abiArguments_native : abiArguments host req elidePath true = .ok [] := by
  rw [abiArguments]
  cases req.abiJar <;> rfl

/-- A processing request is planned as one command, with no output of its own. -/
theorem plan_of_processing (h : processing req = true) :
    plan host req elidePath extraSources usedDepsReport true =
      .ok [[elidePath, "kotlinc"] ++ nativeOptions host req ++
        remainder host req extraSources usedDepsReport] := by
  have hsrcjar : srcjarCommands req elidePath = [] := by
    rw [srcjarCommands, h]
    cases req.srcjar <;> rfl
  rw [plan, abiArguments_native, hsrcjar, h, remainder]
  simp only [if_true, Bool.not_true, Bool.and_false, Bool.false_eq_true, if_false, List.append_nil,
    List.append_assoc]
  rfl

end ElideCompile

end RulesElide.KotlinBuilder
