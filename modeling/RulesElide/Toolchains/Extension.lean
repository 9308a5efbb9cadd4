import RulesElide.Library.Reader
import RulesElide.Platform.Strings
import RulesElide.Toolchains.Versions

/-!
# The module extension

`_elide_impl` of `extensions.bzl` wires the tags of a module graph into repositories, one for
each platform, and a hub.  The hub of `hub.bzl` registers toolchains that refer to these
repositories by name.  `hub_matches_iff` says for which module graphs the two agree.
-/

namespace RulesElide.Toolchains

/-! ## Dictionaries -/

/-- A Starlark dictionary: its entries in the order of insertion, one for each key. -/
structure Dict (Index Value : Type) where
  entries : List (Index × Value)
  nodup_keys : (entries.map Prod.fst).Nodup

namespace Dict

variable {Index Value : Type} [DecidableEq Index]

def empty : Dict Index Value := ⟨[], List.nodup_nil⟩

def keys (dict : Dict Index Value) : List Index :=
  dict.entries.map Prod.fst

/-- `dict.get(key)`. -/
def get (dict : Dict Index Value) (key : Index) : Option Value :=
  dict.entries.lookup key

/-- `bool(dict)`. -/
def isEmpty (dict : Dict Index Value) : Bool :=
  dict.entries.isEmpty

variable {dict : Dict Index Value} {index : Index} {value : Value}

theorem mem_of_get (h : dict.get index = some value) : (index, value) ∈ dict.entries := by
  unfold Dict.get at h
  generalize dict.entries = entries at h
  induction entries with
  | nil => cases h
  | cons entry entries ih =>
      rw [List.lookup_cons] at h
      split at h
      · rename_i hsame
        cases h
        rw [beq_iff_eq.mp hsame]
        exact List.mem_cons_self
      · exact List.mem_cons_of_mem _ (ih h)

theorem get_of_mem (h : (index, value) ∈ dict.entries) : dict.get index = some value := by
  have hkeys := dict.nodup_keys
  unfold Dict.get
  generalize dict.entries = entries at h hkeys
  induction entries with
  | nil => exact absurd h List.not_mem_nil
  | cons entry entries ih =>
      rw [List.map_cons, List.nodup_cons] at hkeys
      rw [List.lookup_cons]
      rcases List.mem_cons.mp h with rfl | hrest
      · simp
      · have hne : (index == entry.1) = false := by
          rw [beq_eq_false_iff_ne]
          intro hsame
          exact hkeys.1 (hsame ▸ List.mem_map.mpr ⟨_, hrest, rfl⟩)
        rw [hne]
        exact ih hrest hkeys.2

theorem mem_keys : index ∈ dict.keys ↔ ∃ value, dict.get index = some value := by
  constructor
  · intro h
    obtain ⟨⟨_, value⟩, hentry, rfl⟩ := List.mem_map.mp h
    exact ⟨value, get_of_mem hentry⟩
  · rintro ⟨value, hvalue⟩
    exact List.mem_map_of_mem (mem_of_get hvalue)

end Dict

/-- `dict[key]`. -/
def lookup (dict : Dict String String) (key : String) : Except String String :=
  match dict.get key with
  | some value => .ok value
  | none => .error ("key \"" ++ key ++ "\" not found in dictionary")

/-! ## Platforms -/

/-- An operating system and a processor. -/
abbrev Platform := String × String

/-- `PLATFORMS`. -/
def platforms : List Platform :=
  [("linux", "amd64"), ("linux", "arm64"), ("macos", "arm64"), ("windows", "amd64")]

/-- `OS_CONSTRAINTS`. -/
def osConstraints : Dict String String where
  entries := [("linux", "@platforms//os:linux"), ("macos", "@platforms//os:macos"),
    ("windows", "@platforms//os:windows")]
  nodup_keys := by decide

/-- `CPU_CONSTRAINTS`. -/
def cpuConstraints : Dict String String where
  entries := [("amd64", "@platforms//cpu:x86_64"), ("arm64", "@platforms//cpu:aarch64")]
  nodup_keys := by decide

/-- `"{os}_{cpu}"`. -/
def platformKey (platform : Platform) : String :=
  platform.1 ++ "_" ++ platform.2

/-- `os, cpu = key.split("_", 1)`. -/
def splitKey (key : String) : Except String Platform :=
  if '_' ∈ key.toList then
    .ok (String.ofList (key.toList.takeWhile (· ≠ '_')),
      String.ofList ((key.toList.dropWhile (· ≠ '_')).drop 1))
  else .error "too few values to unpack (got 1, want 2)"

/-! ## Repositories -/

/-- The attributes that the extension gives `elide_download`. -/
structure Download where
  name : String
  version : String
  channel : String
  os : String
  cpu : String
  integrity : String
  urlTemplate : String
  pythonIntegrity : String
  pythonUrlTemplate : String
  deriving DecidableEq

/-- The attributes that the extension gives `elide_local`. -/
structure LocalDirectory where
  name : String
  localPath : String
  os : String
  deriving DecidableEq

inductive Repository
  | elideDownload (attrs : Download)
  | elideLocal (attrs : LocalDirectory)
  deriving DecidableEq

def Repository.name : Repository → String
  | elideDownload attrs => attrs.name
  | elideLocal attrs => attrs.name

/-- The attributes of `elide_toolchains_hub`, whose name is `elide_toolchains`. -/
structure Hub where
  version : String
  repoPrefix : String := "elide"
  platforms : List String := []
  deriving DecidableEq

/-! ## The hub -/

/-- What one toolchain of the hub is made of. -/
structure Toolchain where
  name : String
  repo : String
  version : String
  osConstraint : String
  cpuConstraint : String
  binExt : String
  deriving DecidableEq

/-- A label of the repository, in quotes. -/
def Toolchain.reference (toolchain : Toolchain) (target : String) : String :=
  "\"@" ++ toolchain.repo ++ "//:" ++ target ++ "\""

/-- `_TOOLCHAIN_TEMPLATE`. -/
def Toolchain.text (toolchain : Toolchain) : String :=
  let reference := toolchain.reference
  let constraints :=
    ["        \"", toolchain.osConstraint, "\",\n", "        \"", toolchain.cpuConstraint, "\",\n"]
  String.join (
    ["elide_toolchain(\n",
      "    name = \"", toolchain.name, "_impl\",\n",
      "    binary = ", reference ("bin/elide" ++ toolchain.binExt), ",\n",
      "    compile_tool_files = [", reference "elide_compile_files", "],\n",
      "    jextract_tool_files = [", reference "elide_jextract_files", "],\n",
      "    kotlin_stdlib = [", reference "kotlin_stdlib_jars", "],\n",
      "    python_tool_files = [", reference "elide_python_files", "],\n",
      "    tool_files = [", reference "elide_native_image_files", "],\n",
      "    version = \"", toolchain.version, "\",\n",
      ")\n\n",
      "toolchain(\n",
      "    name = \"", toolchain.name, "\",\n",
      "    exec_compatible_with = [\n"] ++ constraints ++ ["    ],\n",
      "    target_compatible_with = [\n"] ++ constraints ++ ["    ],\n",
      "    toolchain = \":", toolchain.name, "_impl\",\n",
      "    toolchain_type = \"@rules_elide//elide:toolchain_type\",\n",
      ")\n\n"])

/-- `_BUILD_HEADER`. -/
def buildHeader : String :=
  "load(\"@rules_elide//elide:toolchain.bzl\", \"elide_toolchain\")\n\n" ++
  "package(default_visibility = [\"//visibility:public\"])\n\n"

namespace Hub

/-- The keys to register toolchains for: no platforms at all stand for all of `PLATFORMS`. -/
def keys (hub : Hub) : List String :=
  if hub.platforms.isEmpty then Toolchains.platforms.map platformKey else hub.platforms

def toolchain (hub : Hub) (key : String) : Except String Toolchain := do
  let (os, cpu) ← splitKey key
  let osConstraint ← lookup osConstraints os
  let cpuConstraint ← lookup cpuConstraints cpu
  .ok {
    name := key
    repo := hub.repoPrefix ++ "_" ++ key
    version := hub.version
    osConstraint
    cpuConstraint
    binExt := if os = "windows" then ".exe" else "" }

/-- The toolchains that the hub declares. -/
def toolchains (hub : Hub) : Except String (List Toolchain) :=
  hub.keys.mapM hub.toolchain

end Hub

/-- `_elide_toolchains_hub_impl`: the text of the generated `BUILD.bazel`. -/
def elideToolchainsHubImpl (hub : Hub) : Except String String := do
  let toolchains ← hub.toolchains
  .ok (String.join (buildHeader :: toolchains.map Toolchain.text))

/-! ## Tags -/

/-- `DEFAULT_CHANNEL`. -/
def defaultChannel : String := "nightly"

/-- `DEFAULT_VERSION`. -/
def defaultVersion : String := "1.6.2"

/-- `elide.install`. -/
structure InstallTag where
  channel : String := defaultChannel
  python : Bool := false
  pythonUrlTemplate : String := ""
  repoPrefix : String := "elide"
  urlTemplate : String := ""
  version : String := defaultVersion

/-- `elide.use`. -/
structure UseTag where
  channel : String := defaultChannel
  integrity : Dict String String := .empty
  localPath : String := ""
  pythonIntegrity : Dict String String := .empty
  pythonUrlTemplate : String := ""
  repoPrefix : String := "elide"
  urlTemplate : String := ""
  version : String := ""

/-- A module of the module graph, with its tags. -/
structure Module where
  isRoot : Bool
  install : List InstallTag := []
  use : List UseTag := []

/-- `ctx.os`. -/
structure Host where
  name : String
  arch : String

/-- The repositories that a run of the extension creates, and its metadata. -/
structure Wiring where
  repositories : List Repository
  hub : Hub
  reproducible : Bool

/-! ## The code -/

/-- `_host_platform`. -/
def hostPlatform (host : Host) : Option String × Option String :=
  let name := host.name.toLower
  let arch := host.arch.toLower
  let os :=
    if contains name "linux" then some "linux"
    else if contains name "mac" || contains name "darwin" || contains name "osx" then some "macos"
    else if contains name "windows" then some "windows"
    else none
  let cpu :=
    if arch ∈ ["amd64", "x86_64", "x64"] then some "amd64"
    else if arch ∈ ["aarch64", "arm64"] then some "arm64"
    else none
  (os, cpu)

/-- `_wire_use` for a distribution in a local directory. -/
def wireLocal (host : Host) (tag : UseTag) : Except String Wiring :=
  if !tag.pythonIntegrity.isEmpty || tag.pythonUrlTemplate ≠ "" then
    .error ("elide.use(local_path) requires an already overlaid distribution; overlay download " ++
      "options cannot be combined with local_path.")
  else
    match hostPlatform host with
    | (some os, some cpu) =>
        let key := platformKey (os, cpu)
        .ok {
          repositories := [.elideLocal ⟨tag.repoPrefix ++ "_" ++ key, tag.localPath, os⟩]
          hub := {
            version := if tag.version = "" then "local" else tag.version
            repoPrefix := tag.repoPrefix
            platforms := [key] }
          -- a local path is machine-specific
          reproducible := false }
    | _ =>
        .error ("elide.use(local_path) could not map host os.name=" ++ host.name ++
          ", os.arch=" ++ host.arch ++ " to a supported platform.")

/-- `sorted(first.keys()) == sorted(second.keys())`. -/
def sameKeys (first second : Dict String String) : Bool :=
  first.keys.insertionSort (· ≤ ·) = second.keys.insertionSort (· ≤ ·)

/-- The loop over the checksums of the Python overlays. -/
def checkOverlay (key integrity : String) : Except String Unit :=
  if integrity = "" then
    .error ("elide.use python_integrity must provide a non-empty checksum for " ++ key ++ ".")
  else .ok ()

/-- The loop over the checksums of a custom release. -/
def customDownload (tag : UseTag) (key integrity : String) : Except String Repository := do
  let (os, cpu) ← splitKey key
  .ok (.elideDownload {
    name := tag.repoPrefix ++ "_" ++ key
    version := tag.version
    channel := tag.channel
    os
    cpu
    integrity
    urlTemplate := tag.urlTemplate
    pythonIntegrity := (tag.pythonIntegrity.get key).getD ""
    pythonUrlTemplate := tag.pythonUrlTemplate })

/-- `_wire_use` for a custom release. -/
def wireCustom (tag : UseTag) : Except String Wiring :=
  if tag.urlTemplate = "" || tag.integrity.isEmpty then
    .error ("elide.use requires either `local_path`, or `url_template` together with " ++
      "`integrity` (per-platform `<os>_<cpu>` -> SRI hashes).")
  else if (!tag.pythonIntegrity.isEmpty) != (tag.pythonUrlTemplate != "") then
    .error "elide.use Python overlays require both python_url_template and python_integrity."
  else if !tag.pythonIntegrity.isEmpty && !sameKeys tag.pythonIntegrity tag.integrity then
    .error "elide.use python_integrity must cover exactly the same platforms as integrity."
  else do
    tag.pythonIntegrity.entries.forM fun entry => checkOverlay entry.1 entry.2
    let repositories ← tag.integrity.entries.mapM fun entry => customDownload tag entry.1 entry.2
    return {
      repositories
      hub := {
        version := if tag.version = "" then "custom" else tag.version
        repoPrefix := tag.repoPrefix
        platforms := tag.integrity.keys }
      reproducible := true }

/-- `_wire_use`. -/
def wireUse (host : Host) (tag : UseTag) : Except String Wiring :=
  if tag.localPath ≠ "" then wireLocal host tag else wireCustom tag

/-- What `_elide_impl` gathers from the tags. -/
structure Request where
  versions : List String := []
  channel : String := defaultChannel
  repoPrefix : String := "elide"
  urlTemplate : String := ""
  useTag : Option UseTag := none
  python : Bool := false
  pythonUrlTemplate : String := ""

namespace Request

/-- The loop over the `install` tags of a module. -/
def addInstall (isRoot : Bool) (request : Request) (tag : InstallTag) : Request :=
  let request :=
    { request with
      versions := request.versions ++ [tag.version]
      python := request.python || tag.python }
  if isRoot then
    { request with
      channel := tag.channel
      repoPrefix := tag.repoPrefix
      urlTemplate := tag.urlTemplate
      pythonUrlTemplate := tag.pythonUrlTemplate }
  else request

/-- The loop over the modules; the last root `use` wins. -/
def addModule (request : Request) (module : Module) : Request :=
  let request := module.install.foldl (addInstall module.isRoot) request
  if module.isRoot then
    { request with useTag := module.use.getLast?.or request.useTag }
  else request

def ofModules (modules : List Module) : Request :=
  modules.foldl addModule {}

end Request

/-- The loop over `PLATFORMS`, which skips the platforms that the version has no archive for. -/
def pinnedDownloads (request : Request) (version : String)
    (integrities pythonIntegrities : Dict Platform String) : List Repository :=
  platforms.filterMap fun platform =>
    (integrities.get platform).map fun integrity =>
      .elideDownload {
        name := request.repoPrefix ++ "_" ++ platformKey platform
        version
        channel := request.channel
        os := platform.1
        cpu := platform.2
        integrity
        urlTemplate := request.urlTemplate
        pythonIntegrity := (pythonIntegrities.get platform).getD ""
        pythonUrlTemplate := request.pythonUrlTemplate }

/-- The loop over the platforms of the selected version. -/
def checkPinnedOverlay (version : String) (pythonIntegrities : Dict Platform String)
    (platform : Platform) : Except String Unit :=
  if (pythonIntegrities.get platform).getD "" = "" then
    .error ("No pinned Python overlay for Elide " ++ version ++ " on " ++ platform.1 ++ "/" ++
      platform.2 ++ ". Choose a version with Python overlays or use elide.use with explicit " ++
        "overlay hashes.")
  else .ok ()

/-- `ELIDE_VERSIONS` and `PYTHON_VERSIONS`, the tables of checksums. -/
structure Tables where
  elideVersions : Dict String (Dict Platform String)
  pythonVersions : Dict String (Dict Platform String)

/-- `_elide_impl` for a selected version. -/
def wireVersion (tables : Tables) (request : Request) (version : String) :
    Except String Wiring := do
  match tables.elideVersions.get version with
  | none =>
      .error ("Unknown elide version '" ++ version ++ "'. Pin a release recorded in " ++
        "elide/private/versions.bzl, or contribute a new entry.")
  | some integrities =>
      let pythonIntegrities :=
        if request.python then (tables.pythonVersions.get version).getD .empty else .empty
      let checks :=
        if request.python then integrities.keys.map (checkPinnedOverlay version pythonIntegrities)
        else []
      checks.forM id
      return {
        repositories := pinnedDownloads request version integrities pythonIntegrities
        hub := { version, repoPrefix := request.repoPrefix }
        reproducible := true }

/-- `_elide_impl` when the root module has no `use` tag. -/
def wireInstall (tables : Tables) (request : Request) : Except String Wiring :=
  match selectVersion request.versions with
  | none => .ok ⟨[], { version := "", repoPrefix := request.repoPrefix }, true⟩
  | some version => wireVersion tables request version

/-- `_elide_impl`. -/
def elideImpl (tables : Tables) (host : Host) (modules : List Module) : Except String Wiring :=
  let request := Request.ofModules modules
  match request.useTag with
  | some tag => wireUse host tag
  | none => wireInstall tables request

/-! ## What the tags ask for -/

open Reader

/-- The versions that the modules ask for, in order. -/
def installVersions (modules : List Module) : List String :=
  modules.flatMap fun module => module.install.map InstallTag.version

/-- The `use` tag that counts: the last one of a root module. -/
def rootUse (modules : List Module) : Option UseTag :=
  (modules.flatMap fun module => if module.isRoot then module.use else []).getLast?

@[simp] theorem addInstall_useTag (isRoot : Bool) (request : Request) (tag : InstallTag) :
    (request.addInstall isRoot tag).useTag = request.useTag := by
  unfold Request.addInstall
  split <;> rfl

@[simp] theorem addInstall_versions (isRoot : Bool) (request : Request) (tag : InstallTag) :
    (request.addInstall isRoot tag).versions = request.versions ++ [tag.version] := by
  unfold Request.addInstall
  split <;> rfl

theorem foldl_addInstall (isRoot : Bool) (tags : List InstallTag) :
    ∀ request : Request,
      (tags.foldl (Request.addInstall isRoot) request).useTag = request.useTag ∧
        (tags.foldl (Request.addInstall isRoot) request).versions =
          request.versions ++ tags.map InstallTag.version := by
  induction tags with
  | nil =>
      intro request
      exact ⟨rfl, (List.append_nil _).symm⟩
  | cons tag tags ih =>
      intro request
      obtain ⟨huse, hversions⟩ := ih (request.addInstall isRoot tag)
      rw [List.foldl_cons, huse, hversions]
      simp

theorem addModule_versions (request : Request) (module : Module) :
    (request.addModule module).versions =
      request.versions ++ module.install.map InstallTag.version := by
  have h := (foldl_addInstall module.isRoot module.install request).2
  unfold Request.addModule
  dsimp only
  split
  · exact h
  · exact h

theorem addModule_useTag (request : Request) (module : Module) :
    (request.addModule module).useTag =
      (if module.isRoot then module.use else []).getLast?.or request.useTag := by
  have h := (foldl_addInstall module.isRoot module.install request).1
  unfold Request.addModule
  dsimp only
  split
  · show module.use.getLast?.or
      (module.install.foldl (Request.addInstall module.isRoot) request).useTag = _
    rw [h]
  · exact h

/-- **The tags gathered.**  Versions come from every module, a `use` tag from a root module. -/
theorem foldl_addModule (modules : List Module) :
    ∀ request : Request,
      (modules.foldl Request.addModule request).versions =
          request.versions ++ installVersions modules ∧
        (modules.foldl Request.addModule request).useTag =
          (rootUse modules).or request.useTag := by
  induction modules with
  | nil =>
      intro request
      exact ⟨(List.append_nil _).symm, rfl⟩
  | cons module modules ih =>
      intro request
      obtain ⟨hversions, huse⟩ := ih (request.addModule module)
      rw [List.foldl_cons, hversions, huse, addModule_versions, addModule_useTag]
      refine ⟨by simp [installVersions], ?_⟩
      -- a later tag takes the place of an earlier one
      rw [rootUse, rootUse, List.flatMap_cons, List.getLast?_append, Option.or_assoc]

theorem ofModules_versions (modules : List Module) :
    (Request.ofModules modules).versions = installVersions modules :=
  (foldl_addModule modules {}).1

theorem ofModules_useTag (modules : List Module) :
    (Request.ofModules modules).useTag = rootUse modules := by
  rw [Request.ofModules, (foldl_addModule modules {}).2, Option.or_none]

/-! ## Keys -/

theorem splitKey_platformKey {platform : Platform} (h : '_' ∉ platform.1.toList) :
    splitKey (platformKey platform) = .ok platform := by
  obtain ⟨os, cpu⟩ := platform
  have hmem : '_' ∈ (platformKey (os, cpu)).toList := by
    simp [platformKey]
  have hos : ∀ character ∈ os.toList, decide (character ≠ '_') = true :=
    fun character hcharacter => decide_eq_true (ne_of_mem_of_not_mem hcharacter h)
  have htext : (platformKey (os, cpu)).toList = os.toList ++ '_' :: cpu.toList := by
    simp [platformKey]
  rw [splitKey, if_pos hmem, htext, List.takeWhile_append_of_pos hos,
    List.dropWhile_append_of_pos hos,
    List.takeWhile_cons_of_neg (by simp), List.dropWhile_cons_of_neg (by simp), List.append_nil,
    String.ofList_toList, List.drop_succ_cons, List.drop_zero, String.ofList_toList]

theorem platformKey_of_splitKey {key : String} {platform : Platform}
    (h : splitKey key = .ok platform) :
    platformKey platform = key := by
  unfold splitKey at h
  split at h
  · rename_i hmem
    cases h
    -- the key is cut at the first underscore, and there is one
    have hrest :
      key.toList.dropWhile (· ≠ '_') = '_' :: (key.toList.dropWhile (· ≠ '_')).drop 1 := by
      cases hdrop : key.toList.dropWhile (· ≠ '_') with
      | nil =>
          have hall := List.dropWhile_eq_nil_iff.mp hdrop '_' hmem
          simp at hall
      | cons character rest =>
          have hcharacter := List.head_dropWhile_not (fun character => decide (character ≠ '_'))
            (l := key.toList) (by rw [hdrop]; exact List.cons_ne_nil _ _)
          simp only [hdrop, List.head_cons, decide_eq_false_iff_not, not_not] at hcharacter
          rw [hcharacter]
          rfl
    apply String.toList_injective
    simp only [platformKey, String.toList_append, String.toList_ofList, List.append_assoc]
    calc key.toList.takeWhile (· ≠ '_') ++ ("_".toList ++ (key.toList.dropWhile (· ≠ '_')).drop 1)
        = key.toList.takeWhile (· ≠ '_') ++ key.toList.dropWhile (· ≠ '_') := by
          rw [hrest]
          rfl
      _ = key.toList := List.takeWhile_append_dropWhile
  · cases h

theorem lookup_eq_ok {dict : Dict String String} {key value : String} :
    lookup dict key = .ok value ↔ dict.get key = some value := by
  unfold lookup
  cases dict.get key with
  | none => simp
  | some found => simp

/-- The operating system and the processor of a key have constraint values. -/
def KnownKey (key : String) : Prop :=
  ∃ platform : Platform, platform.1 ∈ osConstraints.keys ∧ platform.2 ∈ cpuConstraints.keys ∧
    key = platformKey platform

/-- What the hub makes of a key. -/
theorem Hub.toolchain_eq_ok {hub : Hub} {key : String} {toolchain : Toolchain} :
    hub.toolchain key = .ok toolchain ↔
      ∃ (platform : Platform) (osConstraint cpuConstraint : String),
        splitKey key = .ok platform ∧ osConstraints.get platform.1 = some osConstraint ∧
        cpuConstraints.get platform.2 = some cpuConstraint ∧
        toolchain =
          { name := key
            repo := hub.repoPrefix ++ "_" ++ key
            version := hub.version
            osConstraint
            cpuConstraint
            binExt := if platform.1 = "windows" then ".exe" else "" } := by
  unfold Hub.toolchain
  constructor
  · intro h
    obtain ⟨platform, hkey, h⟩ := bind_eq_ok.mp h
    obtain ⟨os, hos, h⟩ := bind_eq_ok.mp h
    obtain ⟨cpu, hcpu, h⟩ := bind_eq_ok.mp h
    cases h
    exact ⟨platform, os, cpu, hkey, lookup_eq_ok.mp hos, lookup_eq_ok.mp hcpu, rfl⟩
  · rintro ⟨platform, os, cpu, hkey, hos, hcpu, rfl⟩
    exact bind_eq_ok.mpr ⟨platform, hkey, bind_eq_ok.mpr ⟨os, lookup_eq_ok.mpr hos,
      bind_eq_ok.mpr ⟨cpu, lookup_eq_ok.mpr hcpu, rfl⟩⟩⟩

/-- The hub has a toolchain for a key exactly if both have constraint values. -/
theorem Hub.exists_toolchain_iff {hub : Hub} {key : String} :
    (∃ toolchain, hub.toolchain key = .ok toolchain) ↔ KnownKey key := by
  constructor
  · rintro ⟨toolchain, h⟩
    obtain ⟨platform, os, cpu, hkey, hos, hcpu, -⟩ := Hub.toolchain_eq_ok.mp h
    exact ⟨platform, Dict.mem_keys.mpr ⟨os, hos⟩, Dict.mem_keys.mpr ⟨cpu, hcpu⟩,
      (platformKey_of_splitKey hkey).symm⟩
  · rintro ⟨platform, hos, hcpu, rfl⟩
    -- no name of an operating system has an underscore, so the key is split where it was joined
    have hname : '_' ∉ platform.1.toList :=
      (by decide : ∀ name ∈ osConstraints.keys, '_' ∉ String.toList name) platform.1 hos
    obtain ⟨os, hos⟩ := Dict.mem_keys.mp hos
    obtain ⟨cpu, hcpu⟩ := Dict.mem_keys.mp hcpu
    exact ⟨_, Hub.toolchain_eq_ok.mpr
      ⟨platform, os, cpu, splitKey_platformKey hname, hos, hcpu, rfl⟩⟩

theorem Hub.exists_toolchains_iff {hub : Hub} :
    (∃ toolchains, hub.toolchains = .ok toolchains) ↔ ∀ key ∈ hub.keys, KnownKey key := by
  rw [Hub.toolchains, exists_mapM_eq_ok]
  exact forall₂_congr fun _ _ => Hub.exists_toolchain_iff

theorem hostPlatform_known {host : Host} {os cpu : String}
    (h : hostPlatform host = (some os, some cpu)) :
    os ∈ osConstraints.keys ∧ cpu ∈ cpuConstraints.keys := by
  obtain ⟨hos, hcpu⟩ := Prod.mk.inj h
  constructor
  · split at hos
    · cases hos
      decide
    · split at hos
      · cases hos
        decide
      · split at hos
        · cases hos
          decide
        · cases hos
  · split at hcpu
    · cases hcpu
      decide
    · split at hcpu
      · cases hcpu
        decide
      · cases hcpu

/-! ## Names -/

/-- The hub declares toolchains, and the repositories that these refer to are those that were
created. -/
def HubMatches (wiring : Wiring) : Prop :=
  ∃ toolchains, wiring.hub.toolchains = .ok toolchains ∧
    ∀ name, name ∈ toolchains.map Toolchain.repo ↔ name ∈ wiring.repositories.map Repository.name

theorem Hub.toolchain_repo {hub : Hub} {key : String} {toolchain : Toolchain}
    (h : hub.toolchain key = .ok toolchain) : toolchain.repo = hub.repoPrefix ++ "_" ++ key := by
  obtain ⟨_, _, _, _, _, _, rfl⟩ := Hub.toolchain_eq_ok.mp h
  rfl

/-- A toolchain refers to the repository that its key names. -/
theorem Hub.toolchains_repo {hub : Hub} {toolchains : List Toolchain}
    (h : hub.toolchains = .ok toolchains) :
    toolchains.map Toolchain.repo = hub.keys.map (hub.repoPrefix ++ "_" ++ ·) :=
  map_of_mapM (fun _ _ => Hub.toolchain_repo) h

/-- A hub whose keys name the created repositories matches if it has a toolchain for each key. -/
theorem hubMatches_iff_of_names {wiring : Wiring}
    (h : wiring.repositories.map Repository.name =
      wiring.hub.keys.map (wiring.hub.repoPrefix ++ "_" ++ ·)) :
    HubMatches wiring ↔ ∀ key ∈ wiring.hub.keys, KnownKey key := by
  rw [← Hub.exists_toolchains_iff]
  constructor
  · rintro ⟨toolchains, htoolchains, -⟩
    exact ⟨toolchains, htoolchains⟩
  · rintro ⟨toolchains, htoolchains⟩
    refine ⟨toolchains, htoolchains, fun name => ?_⟩
    rw [Hub.toolchains_repo htoolchains, h]

/-! ## A root `use` tag -/

theorem wireLocal_matches {host : Host} {tag : UseTag} {wiring : Wiring}
    (h : wireLocal host tag = .ok wiring) : HubMatches wiring := by
  unfold wireLocal at h
  split at h
  · cases h
  · split at h
    · rename_i os cpu hhost
      cases h
      obtain ⟨hos, hcpu⟩ := hostPlatform_known hhost
      refine (hubMatches_iff_of_names rfl).mpr fun key hkey => ?_
      obtain rfl : key = platformKey (os, cpu) := List.mem_singleton.mp hkey
      exact ⟨(os, cpu), hos, hcpu, rfl⟩
    · cases h

theorem customDownload_name {tag : UseTag} {entry : String × String} {repository : Repository}
    (h : customDownload tag entry.1 entry.2 = .ok repository) :
    repository.name = tag.repoPrefix ++ "_" ++ entry.1 := by
  obtain ⟨platform, _, h⟩ := bind_eq_ok.mp h
  cases h
  rfl

theorem wireCustom_matches_iff {tag : UseTag} {wiring : Wiring}
    (h : wireCustom tag = .ok wiring) :
    HubMatches wiring ↔ ∀ key ∈ tag.integrity.keys, KnownKey key := by
  unfold wireCustom at h
  split at h
  · cases h
  · rename_i hintegrity
    split at h
    · cases h
    · split at h
      · cases h
      · obtain ⟨_, _, h⟩ := bind_eq_ok.mp h
        obtain ⟨repositories, hrepositories, h⟩ := bind_eq_ok.mp h
        cases h
        -- there is a checksum, so the keys of the tag do not stand for all platforms
        have hkeys : Hub.keys ⟨if tag.version = "" then "custom" else tag.version,
            tag.repoPrefix, tag.integrity.keys⟩ = tag.integrity.keys := by
          refine if_neg ?_
          intro hempty
          have hentries : tag.integrity.entries = [] := by simpa [Dict.keys] using hempty
          simp [Dict.isEmpty, hentries] at hintegrity
        have hnames := map_of_mapM (fun _ _ => customDownload_name) hrepositories
        rw [hubMatches_iff_of_names (by rw [hkeys, hnames, Dict.keys, List.map_map]; rfl), hkeys]

theorem wireUse_matches_iff {host : Host} {tag : UseTag} {wiring : Wiring}
    (h : wireUse host tag = .ok wiring) :
    HubMatches wiring ↔ tag.localPath ≠ "" ∨ ∀ key ∈ tag.integrity.keys, KnownKey key := by
  unfold wireUse at h
  split at h
  · rename_i hlocal
    exact iff_of_true (wireLocal_matches h) (Or.inl hlocal)
  · rename_i hlocal
    rw [wireCustom_matches_iff h, or_iff_right hlocal]

/-! ## Pinned versions -/

theorem platformKey_inj : ∀ first ∈ platforms, ∀ second ∈ platforms,
    platformKey first = platformKey second → first = second := by
  decide

/-- A hub for all platforms can be generated. -/
theorem toolchains_of_all (version repoPrefix : String) :
    ∃ toolchains, Hub.toolchains ⟨version, repoPrefix, []⟩ = .ok toolchains :=
  ⟨_, rfl⟩

/-- A hub for all platforms matches only if a repository was created for each. -/
theorem matches_iff_of_all {wiring : Wiring} {created : List Platform}
    (hplatforms : wiring.hub.platforms = []) (hcreated : created ⊆ platforms)
    (hnames : wiring.repositories.map Repository.name =
      created.map fun platform => wiring.hub.repoPrefix ++ "_" ++ platformKey platform) :
    HubMatches wiring ↔ ∀ platform ∈ platforms, platform ∈ created := by
  obtain ⟨toolchains, htoolchains⟩ := toolchains_of_all wiring.hub.version wiring.hub.repoPrefix
  rw [← hplatforms] at htoolchains
  have hrepos : toolchains.map Toolchain.repo =
      platforms.map fun platform => wiring.hub.repoPrefix ++ "_" ++ platformKey platform := by
    rw [Hub.toolchains_repo htoolchains, Hub.keys, hplatforms]
    exact List.map_map
  constructor
  · rintro ⟨toolchains', htoolchains', h⟩ platform hplatform
    obtain rfl : toolchains = toolchains' := Except.ok.inj (htoolchains.symm.trans htoolchains')
    have hname := (h _).mp (hrepos ▸ List.mem_map_of_mem hplatform)
    rw [hnames] at hname
    obtain ⟨other, hother, hequal⟩ := List.mem_map.mp hname
    have hkey := (String.append_right_inj _).mp hequal
    rw [← platformKey_inj other (hcreated hother) platform hplatform hkey]
    exact hother
  · intro h
    refine ⟨toolchains, htoolchains, fun name => ?_⟩
    rw [hrepos, hnames, List.mem_map, List.mem_map]
    constructor
    · rintro ⟨platform, hplatform, rfl⟩
      exact ⟨platform, h platform hplatform, rfl⟩
    · rintro ⟨platform, hplatform, rfl⟩
      exact ⟨platform, hcreated hplatform, rfl⟩

/-- The selected version has an archive for every platform. -/
def PinsAll (tables : Tables) (version : String) : Prop :=
  ∃ integrities, tables.elideVersions.get version = some integrities ∧
    ∀ platform ∈ platforms, (integrities.get platform).isSome = true

theorem pinnedDownloads_name (request : Request) (version : String)
    (integrities pythonIntegrities : Dict Platform String) :
    (pinnedDownloads request version integrities pythonIntegrities).map Repository.name =
      (platforms.filter fun platform => (integrities.get platform).isSome).map
        fun platform => request.repoPrefix ++ "_" ++ platformKey platform := by
  unfold pinnedDownloads
  induction platforms with
  | nil => rfl
  | cons platform later ih =>
      cases hintegrity : integrities.get platform with
      | none =>
          rw [List.filterMap_cons_none (by rw [hintegrity]; rfl), ih, List.filter_cons_of_neg]
          simp [hintegrity]
      | some integrity =>
          rw [List.filterMap_cons_some (by rw [hintegrity]; rfl), List.map_cons, ih,
            List.filter_cons_of_pos, List.map_cons]
          · rfl
          · simp [hintegrity]

theorem wireVersion_matches_iff {tables : Tables} {request : Request} {version : String}
    {wiring : Wiring} (h : wireVersion tables request version = .ok wiring) :
    HubMatches wiring ↔ PinsAll tables version := by
  unfold wireVersion at h
  split at h
  · cases h
  · rename_i integrities hintegrities
    obtain ⟨_, _, h⟩ := bind_eq_ok.mp h
    cases h
    refine (matches_iff_of_all rfl (List.filter_subset_self _)
      (pinnedDownloads_name request version integrities _)).trans ?_
    simp only [List.mem_filter, PinsAll, hintegrities, Option.some.injEq, exists_eq_left']
    exact forall₂_congr fun platform hplatform => and_iff_right hplatform

theorem wireInstall_matches_iff {tables : Tables} {request : Request} {wiring : Wiring}
    (h : wireInstall tables request = .ok wiring) :
    HubMatches wiring ↔
      ∃ version, selectVersion request.versions = some version ∧ PinsAll tables version := by
  unfold wireInstall at h
  split at h
  · rename_i hnone
    cases h
    refine (matches_iff_of_all rfl (List.nil_subset _) rfl).trans ?_
    rw [hnone]
    exact iff_of_false (fun h => absurd (h ("linux", "amd64") (by decide)) List.not_mem_nil) nofun
  · rename_i version hversion
    rw [wireVersion_matches_iff h, hversion]
    simp

/-- **Toolchains and repositories.**  The hub declares toolchains for exactly the repositories
created when the root module brings its own Elide, from a directory or for platforms with
constraint values, or else when the selected version has an archive for every platform. -/
theorem hub_matches_iff (tables : Tables) (host : Host) (modules : List Module) (wiring : Wiring)
    (h : elideImpl tables host modules = .ok wiring) :
    HubMatches wiring ↔
      (∃ tag, rootUse modules = some tag ∧
        (tag.localPath ≠ "" ∨ ∀ key ∈ tag.integrity.keys, KnownKey key)) ∨
      rootUse modules = none ∧
        ∃ version, selectVersion (installVersions modules) = some version ∧
          PinsAll tables version := by
  unfold elideImpl at h
  dsimp only at h
  rw [← ofModules_useTag, ← ofModules_versions]
  cases huse : (Request.ofModules modules).useTag with
  | some tag =>
      rw [huse] at h
      simpa using wireUse_matches_iff h
  | none =>
      rw [huse] at h
      simpa using wireInstall_matches_iff h

/-- One version, with an archive for Linux. -/
def sampleTables : Tables where
  elideVersions := ⟨[("1.6.2", ⟨[(("linux", "amd64"), "sha256-cA==")], by decide⟩)], by decide⟩
  pythonVersions := .empty

def sampleModules : List Module := [⟨true, [{}], []⟩, ⟨false, [{ python := false }], [{}]⟩]

def sampleWiring : Wiring where
  repositories := [.elideDownload ⟨"elide_linux_amd64", "1.6.2", "nightly", "linux", "amd64",
    "sha256-cA==", "", "", ""⟩]
  hub := ⟨"1.6.2", "elide", []⟩
  reproducible := true

theorem hub_matches_iff_sample :
    HubMatches sampleWiring ↔
      (∃ tag, rootUse sampleModules = some tag ∧
        (tag.localPath ≠ "" ∨ ∀ key ∈ tag.integrity.keys, KnownKey key)) ∨
      rootUse sampleModules = none ∧
        ∃ version, selectVersion (installVersions sampleModules) = some version ∧
          PinsAll sampleTables version :=
  hub_matches_iff sampleTables ⟨"Linux", "amd64"⟩ sampleModules sampleWiring (by rfl)

/-- Nothing is installed, and the hub registers four toolchains. -/
theorem hub_refers_to_nothing :
    ¬ ∀ (tables : Tables) (host : Host) (modules : List Module) (wiring : Wiring),
      elideImpl tables host modules = .ok wiring → HubMatches wiring := by
  intro h
  obtain ⟨toolchains, htoolchains, hmatches⟩ :=
    h ⟨.empty, .empty⟩ ⟨"Linux", "amd64"⟩ [] ⟨[], ⟨"", "elide", []⟩, true⟩ rfl
  have hrepos := Hub.toolchains_repo htoolchains
  have hname := (hmatches "elide_linux_amd64").mp
    (hrepos ▸ List.mem_map.mpr ⟨"linux_amd64", by decide, rfl⟩)
  exact absurd hname List.not_mem_nil

end RulesElide.Toolchains
