import RulesElide.Rules.Actions
import RulesElide.Toolchains.Extension

/-!
# The toolchain of a platform

What becomes of the repositories that the extension creates (`download.bzl`, `versions.bzl`), and
which of the hub's toolchains Bazel takes for a platform.  `toolchain_of_platform` says that it is
one at most, and that the Elide it runs was downloaded for this platform.
-/

namespace RulesElide.Toolchains

open Reader

/-! ## `versions.bzl` -/

/-- `RELEASE_TAGS`. -/
def releaseTags : Dict String String where
  entries := [("1.6.0", "v1.6.0"), ("1.6.1", "v1.6.1"), ("1.6.2", "v1.6.2")]
  nodup_keys := by decide

/-- `release_tag`. -/
def releaseTag (version : String) : String :=
  (releaseTags.get version).getD version

/-- `DEFAULT_URL_TEMPLATE`. -/
def defaultUrlTemplate : String :=
  "https://github.com/elide-dev/elide/releases/download/{version}/elide.{os}-{cpu}.{ext}"

/-- `archive_ext`. -/
def archiveExt (os : String) : String :=
  if os = "windows" then "zip" else "tgz"

/-- `binary_ext`. -/
def binaryExt (os : String) : String :=
  if os = "windows" then ".exe" else ""

/-- `template.format(…)` with named arguments, from some point on; `field` is what was read of a
replacement field. -/
def formatFrom (arguments : List (String × String)) (field : Option (List Char)) :
    List Char → Except String (List Char)
  | [] =>
      match field with
      | none => .ok []
      | some _ => .error "Found '\x7b' without matching '\x7d'"
  | character :: rest =>
      match field with
      | some name =>
          if character = '\x7d' then
            match arguments.lookup (String.ofList name) with
            | some value => (value.toList ++ ·) <$> formatFrom arguments none rest
            | none => .error ("Missing argument '" ++ String.ofList name ++ "'")
          else if character = '\x7b' then
            -- a doubled brace begins no field
            if name = [] then ('\x7b' :: ·) <$> formatFrom arguments none rest
            else .error "Nested replacement fields are not supported"
          else if character ∈ ['.', '[', ']', ','] then
            .error ("Invalid character '" ++ character.toString ++ "' inside replacement field")
          else formatFrom arguments (some (name ++ [character])) rest
      | none =>
          if character = '\x7b' then formatFrom arguments (some []) rest
          else if character = '\x7d' then
            match rest with
            | '\x7d' :: rest => ('\x7d' :: ·) <$> formatFrom arguments none rest
            | _ => .error "Found '\x7d' without matching '\x7b'"
          else (character :: ·) <$> formatFrom arguments none rest

/-- `download_url`. -/
def downloadUrl (urlTemplate channel version os cpu : String) : Except String String :=
  String.ofList <$> formatFrom
    [("channel", if channel = "" then defaultChannel else channel),
      ("version", if urlTemplate ≠ "" then version else releaseTag version),
      ("os", os), ("cpu", cpu),
      ("ext", archiveExt os)]
    none (if urlTemplate ≠ "" then urlTemplate else defaultUrlTemplate).toList

/-- `url.replace(old, new)`, from some point on; after a match, as many characters are skipped as
`old` has. -/
def replaceFrom (old new : List Char) (skip : ℕ) : List Char → List Char
  | [] => []
  | character :: rest =>
      if skip > 0 then replaceFrom old new (skip - 1) rest
      else if old.isPrefixOf (character :: rest) then
        new ++ replaceFrom old new (old.length - 1) rest
      else character :: replaceFrom old new 0 rest

/-- `python_download_url`. -/
def pythonDownloadUrl (urlTemplate channel version os cpu : String) : Except String String :=
  if urlTemplate ≠ "" then downloadUrl urlTemplate channel version os cpu
  else do
    let url ← downloadUrl "" channel version os cpu
    .ok (String.ofList (replaceFrom "/elide.".toList "/elide.python.".toList 0 url.toList))

/-! ## `download.bzl` -/

/-- `ctx.download_and_extract`. -/
structure Fetch where
  url : String
  integrity : String
  stripPrefix : String := ""
  canonicalId : String
  deriving DecidableEq

/-- What a repository rule does. -/
structure Generated where
  fetches : List Fetch := []
  /-- The top-level entries are those of this directory. -/
  linked : Option String := none
  /-- The files that are made executable. -/
  executables : List String := []
  /-- `exports_files`. -/
  exported : String

/-- The filegroups of `_BUILD_TEMPLATE`. -/
def filegroups : List String :=
  ["elide_compile_files", "elide_jextract_files", "elide_native_image_files", "elide_python_files",
    "kotlin_stdlib_jars"]

/-- The targets of the generated `BUILD.bazel`. -/
def Generated.targets (generated : Generated) : List String :=
  generated.exported :: filegroups

/-- What ships without an executable bit. -/
def scripts : List String :=
  (["elide", "google-java-format", "jar", "java", "javac", "javadoc", "javap",
    "kotlinc", "ktfmt"].map
    ("bin/" ++ ·)) ++ ["native-image", "native-image-configure"].map ("lib/svm/bin/" ++ ·) ++
    ["lib/jspawnhelper"]

/-- The overlay that is extracted over the base. -/
def pythonOverlay (attrs : Download) : Except String (List Fetch) := do
  if attrs.pythonIntegrity = "" then return []
  else
    let url ← pythonDownloadUrl attrs.pythonUrlTemplate attrs.channel attrs.version
      attrs.os attrs.cpu
    return [{
      url
      integrity := attrs.pythonIntegrity
      canonicalId := "elide-python-" ++ attrs.version ++ "-" ++ attrs.os ++ "-" ++ attrs.cpu }]

/-- `_elide_download_impl`; the extension gives neither `binary_path` nor `strip_prefix`. -/
def elideDownloadImpl (attrs : Download) : Except String Generated := do
  let url ← downloadUrl attrs.urlTemplate attrs.channel attrs.version attrs.os attrs.cpu
  let overlay ← pythonOverlay attrs
  .ok {
    fetches := {
      url
      integrity := attrs.integrity
      canonicalId := "elide-" ++ attrs.version ++ "-" ++ attrs.os ++ "-" ++ attrs.cpu } :: overlay
    executables := if attrs.os ≠ "windows" then scripts else []
    exported := "bin/elide" ++ binaryExt attrs.os }

/-- `_elide_local_impl`, where the directory exists or not. -/
def elideLocalImpl (holds : String → Bool) (attrs : LocalDirectory) : Except String Generated :=
  if ¬ holds attrs.localPath then
    .error ("elide.use(local_path = ...) points at a path that does not exist: " ++
      attrs.localPath ++ "\nIt must be an already-extracted Elide distribution directory " ++
      "(containing bin/elide, lib/, ...).")
  else .ok { linked := some attrs.localPath, exported := "bin/elide" ++ binaryExt attrs.os }

/-- The rule of a repository. -/
def Repository.generate (holds : String → Bool) : Repository → Except String Generated
  | elideDownload attrs => elideDownloadImpl attrs
  | elideLocal attrs => elideLocalImpl holds attrs

/-! ## Resolution -/

/-- The targets of its repository that a toolchain refers to. -/
def Toolchain.labels (toolchain : Toolchain) : List String :=
  ("bin/elide" ++ toolchain.binExt) :: filegroups

/-- A platform that Bazel builds on, by its constraint values. -/
structure Constraints where
  os : String
  cpu : String
  deriving DecidableEq

/-- `exec_compatible_with`. -/
def Toolchain.constraints (toolchain : Toolchain) : Constraints :=
  ⟨toolchain.osConstraint, toolchain.cpuConstraint⟩

/-- The constraint values of a platform of the release. -/
def constraintsOf (platform : Platform) : Option Constraints := do
  let os ← osConstraints.get platform.1
  let cpu ← cpuConstraints.get platform.2
  some ⟨os, cpu⟩

/-- The checksum that is pinned for a platform: by the root module, or for the selected version. -/
def pinned (tables : Tables) (modules : List Module) (platform : Platform) : Option String :=
  match (Request.ofModules modules).useTag with
  | some tag => tag.integrity.get (platformKey platform)
  | none => do
      let version ← selectVersion (Request.ofModules modules).versions
      let integrities ← tables.elideVersions.get version
      integrities.get platform

/-- The repository has Elide for a platform. -/
def Repository.Serves (tables : Tables) (host : Host) (modules : List Module)
    (platform : Platform) :
    Repository → Prop
  | elideDownload attrs => (attrs.os, attrs.cpu) = platform ∧
      pinned tables modules platform = some attrs.integrity
  | elideLocal attrs => attrs.os = platform.1 ∧
      hostPlatform host = (some platform.1, some platform.2)

variable {tables : Tables} {host : Host} {modules : List Module} {wiring : Wiring} {hub : Hub}
  {toolchain : Toolchain} {toolchains : List Toolchain} {repository : Repository} {key : String}
  {platform : Platform}

/-! ## Constraints -/

/-- A constraint value is that of one platform. -/
theorem constraintsOf_injective {platform' : Platform} {constraints : Constraints}
    (h : constraintsOf platform = some constraints)
    (h' : constraintsOf platform' = some constraints) :
    platform = platform' := by
  have hspec : ∀ platform, constraintsOf platform = some constraints →
      (platform.1, constraints.os) ∈ osConstraints.entries ∧
        (platform.2, constraints.cpu) ∈ cpuConstraints.entries := by
    intro platform h
    unfold constraintsOf at h
    obtain ⟨os, hos, h⟩ := Option.bind_eq_some_iff.mp h
    obtain ⟨cpu, hcpu, h⟩ := Option.bind_eq_some_iff.mp h
    cases h
    exact ⟨Dict.mem_of_get hos, Dict.mem_of_get hcpu⟩
  -- no two systems have one constraint, and no two processors
  have hos : ∀ entry ∈ osConstraints.entries, ∀ entry' ∈ osConstraints.entries,
      entry.2 = entry'.2 → entry.1 = entry'.1 := by decide
  have hcpu : ∀ entry ∈ cpuConstraints.entries, ∀ entry' ∈ cpuConstraints.entries,
      entry.2 = entry'.2 → entry.1 = entry'.1 := by decide
  apply Prod.ext
  · exact hos (platform.1, constraints.os) (hspec platform h).1 (platform'.1, constraints.os)
      (hspec platform' h').1 rfl
  · exact hcpu (platform.2, constraints.cpu) (hspec platform h).2 (platform'.2, constraints.cpu)
      (hspec platform' h').2 rfl

/-! ## Toolchains of the hub -/

theorem Hub.toolchain_spec (h : hub.toolchain key = .ok toolchain) :
    ∃ platform, splitKey key = .ok platform ∧
      constraintsOf platform = some toolchain.constraints ∧
        toolchain.binExt = binaryExt platform.1 := by
  obtain ⟨platform, os, cpu, hkey, hos, hcpu, rfl⟩ := Hub.toolchain_eq_ok.mp h
  refine ⟨platform, hkey, ?_, rfl⟩
  rw [constraintsOf, hos, hcpu]
  rfl

/-- **The generated file.**  It declares a toolchain for each key of the hub, with a reference to
each of the targets. -/
theorem Hub.refers_of_generated {text : String} (h : elideToolchainsHubImpl hub = .ok text) :
    ∃ toolchains, hub.toolchains = .ok toolchains ∧ toolchains.map Toolchain.name = hub.keys ∧
      ∀ toolchain ∈ toolchains, ∀ label ∈ toolchain.labels,
        contains text (toolchain.reference label) = true := by
  obtain ⟨toolchains, htoolchains, h⟩ := bind_eq_ok.mp h
  cases h
  refine ⟨toolchains, htoolchains, ?_, ?_⟩
  · have hname : ∀ key toolchain, hub.toolchain key = .ok toolchain → toolchain.name = key := by
      intro key toolchain htoolchain
      obtain ⟨_, _, _, _, _, _, rfl⟩ := Hub.toolchain_eq_ok.mp htoolchain
      rfl
    rw [map_of_mapM hname htoolchains, List.map_id']
  · intro toolchain htoolchain label hlabel
    -- the template has the reference as one of its parts, the file has the filled template
    have hpart : contains toolchain.text (toolchain.reference label) = true := by
      apply contains_join
      simp only [Toolchain.labels, filegroups, List.mem_cons, List.not_mem_nil, or_false] at hlabel
      rcases hlabel with rfl | rfl | rfl | rfl | rfl | rfl <;> simp
    have htext : contains (String.join (buildHeader :: toolchains.map Toolchain.text))
        toolchain.text = true :=
      contains_join (List.mem_cons_of_mem _ (List.mem_map_of_mem htoolchain))
    exact contains_trans htext hpart

theorem Hub.nodup_keys (h : hub.platforms.Nodup) : hub.keys.Nodup := by
  unfold Hub.keys
  split
  · decide
  · exact h

/-- The constraints of the platform that a key names. -/
def constraintsOfKey (key : String) : Option Constraints :=
  (splitKey key).toOption.bind constraintsOf

theorem constraintsOfKey_injective {key' : String} {constraints : Constraints}
    (h : constraintsOfKey key = some constraints) (h' : constraintsOfKey key' = some constraints) :
    key = key' := by
  have hspec : ∀ key, constraintsOfKey key = some constraints →
      ∃ platform, splitKey key = .ok platform ∧ constraintsOf platform = some constraints := by
    intro key h
    unfold constraintsOfKey at h
    cases hkey : splitKey key with
    | error failure =>
        rw [hkey] at h
        cases h
    | ok platform =>
        rw [hkey] at h
        exact ⟨platform, rfl, h⟩
  obtain ⟨platform, hkey, hconstraints⟩ := hspec key h
  obtain ⟨platform', hkey', hconstraints'⟩ := hspec key' h'
  rw [← platformKey_of_splitKey hkey, ← platformKey_of_splitKey hkey',
    constraintsOf_injective hconstraints hconstraints']

/-- A platform has one toolchain at most. -/
theorem Hub.nodup_constraints (hkeys : hub.keys.Nodup) (h : hub.toolchains = .ok toolchains) :
    (toolchains.map Toolchain.constraints).Nodup := by
  have hmap : toolchains.map (fun toolchain => some toolchain.constraints) =
      hub.keys.map constraintsOfKey := by
    refine map_of_mapM (fun key toolchain htoolchain => ?_) h
    obtain ⟨platform, hkey, hconstraints, -⟩ := Hub.toolchain_spec htoolchain
    rw [constraintsOfKey, hkey]
    exact hconstraints.symm
  have hnodup : (hub.keys.map constraintsOfKey).Nodup := by
    apply List.Nodup.map_on _ hkeys
    intro key hkey key' _ hsame
    have hmem : constraintsOfKey key ∈ toolchains.map
      (fun toolchain => some toolchain.constraints) :=
      hmap ▸ List.mem_map_of_mem hkey
    obtain ⟨toolchain, -, hconstraints⟩ := List.mem_map.mp hmem
    exact constraintsOfKey_injective hconstraints.symm (hsame ▸ hconstraints.symm)
  rw [← hmap] at hnodup
  exact List.Nodup.of_map some (by rwa [List.map_map])

/-! ## Repositories of the extension -/

/-- A repository is named after the platform that it serves. -/
def NamedAfter (tables : Tables) (host : Host) (modules : List Module) (repoPrefix : String)
    (repository : Repository) : Prop :=
  ∃ key platform, repository.name = repoPrefix ++ "_" ++ key ∧ splitKey key = .ok platform ∧
    repository.Serves tables host modules platform

theorem wireLocal_named {tag : UseTag} (h : wireLocal host tag = .ok wiring) :
    wiring.hub.keys.Nodup ∧
      ∀ repository ∈ wiring.repositories,
        NamedAfter tables host modules wiring.hub.repoPrefix repository := by
  unfold wireLocal at h
  split at h
  · cases h
  · split at h
    · rename_i os cpu hhost
      cases h
      refine ⟨Hub.nodup_keys (List.nodup_singleton _), ?_⟩
      intro repository hrepository
      obtain rfl := List.mem_singleton.mp hrepository
      have hos : '_' ∉ os.toList :=
        (by decide : ∀ name ∈ osConstraints.keys, '_' ∉ String.toList name) os
          (hostPlatform_known hhost).1
      exact ⟨_, (os, cpu), rfl, splitKey_platformKey hos, rfl, hhost⟩
    · cases h

theorem wireCustom_named {tag : UseTag} (huse : (Request.ofModules modules).useTag = some tag)
    (h : wireCustom tag = .ok wiring) :
    wiring.hub.keys.Nodup ∧
      ∀ repository ∈ wiring.repositories,
        NamedAfter tables host modules wiring.hub.repoPrefix repository := by
  unfold wireCustom at h
  split at h
  · cases h
  · rename_i hintegrity
    split at h
    · cases h
    · split at h
      · cases h
      · obtain ⟨_, _, h⟩ := bind_eq_ok.mp h
        obtain ⟨repositories, hrepositories, h⟩ := bind_eq_ok.mp h
        cases h
        constructor
        · exact Hub.nodup_keys tag.integrity.nodup_keys
        · intro repository hrepository
          -- each repository comes from one key of the integrity table
          obtain ⟨entry, hentry, hdownload⟩ := exists_of_mapM hrepositories hrepository
          obtain ⟨platform, hkey, hdownload⟩ := bind_eq_ok.mp hdownload
          cases hdownload
          refine ⟨entry.1, platform, rfl, hkey, rfl, ?_⟩
          rw [pinned, huse]
          dsimp only
          rw [platformKey_of_splitKey hkey]
          exact Dict.get_of_mem hentry

theorem wireInstall_named (huse : (Request.ofModules modules).useTag = none)
    (h : wireInstall tables (Request.ofModules modules) = .ok wiring) :
    wiring.hub.keys.Nodup ∧
      ∀ repository ∈ wiring.repositories,
        NamedAfter tables host modules wiring.hub.repoPrefix repository := by
  unfold wireInstall at h
  split at h
  · cases h
    refine ⟨Hub.nodup_keys List.nodup_nil, ?_⟩
    intro repository hrepository
    exact absurd hrepository List.not_mem_nil
  · rename_i version hversion
    unfold wireVersion at h
    split at h
    · cases h
    · rename_i integrities hintegrities
      obtain ⟨_, _, h⟩ := bind_eq_ok.mp h
      cases h
      refine ⟨Hub.nodup_keys List.nodup_nil, ?_⟩
      intro repository hrepository
      -- each repository comes from a platform that the version is published for
      obtain ⟨platform, hplatform, hsome⟩ := List.mem_filterMap.mp hrepository
      obtain ⟨integrity, hintegrity, rfl⟩ := Option.map_eq_some_iff.mp hsome
      refine ⟨platformKey platform, platform, rfl, splitKey_platformKey ?_, rfl, ?_⟩
      · exact (by decide : ∀ platform ∈ platforms, '_' ∉ platform.1.toList) platform hplatform
      · rw [pinned, huse]
        dsimp only
        rw [hversion, Option.bind_eq_bind, Option.bind_some, hintegrities]
        exact hintegrity

theorem elideImpl_named (h : elideImpl tables host modules = .ok wiring) :
    wiring.hub.keys.Nodup ∧
      ∀ repository ∈ wiring.repositories,
        NamedAfter tables host modules wiring.hub.repoPrefix repository := by
  unfold elideImpl at h
  dsimp only at h
  split at h
  · rename_i tag htag
    unfold wireUse at h
    split at h
    · exact wireLocal_named h
    · exact wireCustom_named htag h
  · rename_i hnone
    exact wireInstall_named hnone h

/-! ## What the rules generate -/

/-- The binary that a repository exports is that of its operating system. -/
theorem Repository.Serves.exported {holds : String → Bool} {generated : Generated}
    (h : repository.Serves tables host modules platform)
    (hgenerate : repository.generate holds = .ok generated) :
    generated.exported = "bin/elide" ++ binaryExt platform.1 ∧
      ∀ fetch ∈ generated.fetches.head?, some fetch.integrity = pinned tables modules platform := by
  cases repository with
  | elideDownload attrs =>
      obtain ⟨rfl, hpinned⟩ := h
      change elideDownloadImpl attrs = .ok generated at hgenerate
      unfold elideDownloadImpl at hgenerate
      obtain ⟨url, -, hgenerate⟩ := bind_eq_ok.mp hgenerate
      obtain ⟨overlay, -, hgenerate⟩ := bind_eq_ok.mp hgenerate
      cases hgenerate
      refine ⟨rfl, ?_⟩
      intro fetch hfetch
      cases hfetch
      exact hpinned.symm
  | elideLocal attrs =>
      obtain ⟨hos, -⟩ := h
      change elideLocalImpl holds attrs = .ok generated at hgenerate
      unfold elideLocalImpl at hgenerate
      split at hgenerate
      · cases hgenerate
      · cases hgenerate
        refine ⟨by rw [hos], ?_⟩
        intro fetch hfetch
        cases hfetch

/-- **The toolchain of a platform.**  For a platform there is one toolchain at most; a repository
that was created under the name it refers to has Elide for this platform, as it was pinned, and
every target that the toolchain refers to. -/
theorem toolchain_of_platform (h : elideImpl tables host modules = .ok wiring)
    (htoolchains : wiring.hub.toolchains = .ok toolchains) :
    (toolchains.map Toolchain.constraints).Nodup ∧
      ∀ toolchain ∈ toolchains, ∀ repository ∈ wiring.repositories,
        repository.name = toolchain.repo →
        ∃ platform, constraintsOf platform = some toolchain.constraints ∧
          repository.Serves tables host modules platform ∧
          ∀ holds generated, repository.generate holds = .ok generated →
            toolchain.labels ⊆ generated.targets ∧
              ∀ fetch ∈ generated.fetches.head?,
                some fetch.integrity = pinned tables modules platform := by
  obtain ⟨hkeys, hnamed⟩ := elideImpl_named h
  refine ⟨Hub.nodup_constraints hkeys htoolchains, ?_⟩
  intro toolchain htoolchain repository hrepository hname
  obtain ⟨key, -, hkey⟩ := exists_of_mapM htoolchains htoolchain
  obtain ⟨platform, hsplit, hconstraints, hext⟩ := Hub.toolchain_spec hkey
  obtain ⟨key', platform', hname', hsplit', hserves⟩ := hnamed repository hrepository
  -- one name, so toolchain and repository were made from one key
  obtain rfl : key' = key := by
    rw [hname, Hub.toolchain_repo hkey] at hname'
    exact ((String.append_right_inj _).mp hname').symm
  obtain rfl : platform' = platform := Except.ok.inj (hsplit'.symm.trans hsplit)
  refine ⟨platform', hconstraints, hserves, ?_⟩
  intro holds generated hgenerate
  obtain ⟨hexported, hfetches⟩ := hserves.exported hgenerate
  refine ⟨?_, hfetches⟩
  rw [Toolchain.labels, Generated.targets, hexported, hext]
  exact List.Subset.refl _

theorem toolchain_of_platform_sample :
    ∃ toolchains, sampleWiring.hub.toolchains = .ok toolchains ∧
      (toolchains.map Toolchain.constraints).Nodup ∧
      ∀ toolchain ∈ toolchains, ∀ repository ∈ sampleWiring.repositories,
        repository.name = toolchain.repo → ∃ platform,
          constraintsOf platform = some toolchain.constraints ∧
          repository.Serves sampleTables ⟨"Linux", "amd64"⟩ sampleModules platform ∧
          ∀ holds generated, repository.generate holds = .ok generated →
            toolchain.labels ⊆ generated.targets ∧ ∀ fetch ∈ generated.fetches.head?,
              some fetch.integrity = pinned sampleTables sampleModules platform := by
  obtain ⟨toolchains, htoolchains⟩ := toolchains_of_all "1.6.2" "elide"
  refine ⟨toolchains, htoolchains, ?_⟩
  exact @toolchain_of_platform sampleTables ⟨"Linux", "amd64"⟩ sampleModules sampleWiring toolchains
    (by rfl) htoolchains

/-- The archive that the sample repository fetches. -/
example : downloadUrl "" "nightly" "1.6.2" "linux" "amd64" =
    .ok "https://github.com/elide-dev/elide/releases/download/v1.6.2/elide.linux-amd64.tgz" := by
  decide +kernel

end RulesElide.Toolchains
