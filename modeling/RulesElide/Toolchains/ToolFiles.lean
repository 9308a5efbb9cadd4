import RulesElide.Library.Glob
import RulesElide.Toolchains.Resolution

/-!
# The files of a toolchain

The filegroups of a downloaded distribution (`_BUILD_TEMPLATE`), and the toolchain that the hub
makes of them.  `tool_files` says which tools get which files.
-/

namespace RulesElide.Toolchains

open Glob CompileCommon

/-- The files of a distribution, by their names from its root. -/
abbrev Distribution := List (List String)

namespace Distribution

variable (files : Distribution)

/-- `glob` of everything below some directories, except what is below others. -/
def below (directories excluded : List (List String)) : List (List String) :=
  select (directories.map (· ++ ["**"])) (excluded.map (· ++ ["**"])) files

/-- `elide_compile_files`. -/
def elideCompileFiles : List (List String) :=
  files.below [["bin"], ["lib"]]
    [["lib", "llvm"], ["lib", "resources", "jextract"], ["lib", "static"],
    ["lib", "svm"], ["lib", "truffle"], ["lib", "resources", "python"], ["lib", "maven"]]

/-- `elide_jextract_files`. -/
def elideJextractFiles : List (List String) :=
  files.elideCompileFiles ++ files.below [["lib", "llvm"], ["lib", "resources", "jextract"]] []

/-- `elide_native_image_files`. -/
def elideNativeImageFiles : List (List String) :=
  files.below [["bin"], ["lib"], ["include"]] [["lib", "resources", "python"], ["lib", "maven"]]

/-- `elide_python_files`. -/
def elidePythonFiles : List (List String) :=
  files.below [["bin"], ["lib"], ["conf"]] []

/-- `kotlin_stdlib_jars`. -/
def kotlinStdlibJars : List (List String) :=
  select [["lib", "resources", "kotlin", "*", "lib", "kotlin-stdlib.jar"]] [] files

/-- The paths of files in a repository. -/
def paths (repo : String) (files : List (List String)) : List String :=
  files.map fun names => "external/" ++ repo ++ "/" ++ "/".intercalate names

/-- `elide_toolchain`, as the hub declares it for a repository. -/
def toolchain (repo binExt version : String) : ElideToolchain :=
  { binary := ⟨"external/" ++ repo ++ "/bin", "elide" ++ binExt⟩
    compileToolFiles := paths repo files.elideCompileFiles
    jextractToolFiles := paths repo files.elideJextractFiles
    kotlinStdlib := paths repo files.kotlinStdlibJars
    pythonToolFiles := paths repo files.elidePythonFiles
    toolFiles := paths repo files.elideNativeImageFiles
    version }

variable {files} {path : List String}

theorem mem_elideCompileFiles :
    path ∈ files.elideCompileFiles ↔ path ∈ files ∧ (["bin"] <+: path ∨ ["lib"] <+: path) ∧
      ¬ ["lib", "llvm"] <+: path ∧ ¬ ["lib", "resources", "jextract"] <+: path ∧
      ¬ ["lib", "static"] <+: path ∧ ¬ ["lib", "svm"] <+: path ∧ ¬ ["lib", "truffle"] <+: path ∧
      ¬ ["lib", "resources", "python"] <+: path ∧ ¬ ["lib", "maven"] <+: path := by
  rw [elideCompileFiles, below, mem_select_below (by decide) (by decide)]
  simp

theorem mem_elideNativeImageFiles :
    path ∈ files.elideNativeImageFiles ↔ path ∈ files ∧
      (["bin"] <+: path ∨ ["lib"] <+: path ∨ ["include"] <+: path) ∧
      ¬ ["lib", "resources", "python"] <+: path ∧ ¬ ["lib", "maven"] <+: path := by
  rw [elideNativeImageFiles, below, mem_select_below (by decide) (by decide)]
  simp

theorem mem_elidePythonFiles :
    path ∈ files.elidePythonFiles ↔
      path ∈ files ∧ (["bin"] <+: path ∨ ["lib"] <+: path ∨ ["conf"] <+: path) := by
  rw [elidePythonFiles, below, mem_select_below (by decide) (by decide)]
  simp

/-- A standard library is below a directory of its version. -/
theorem mem_kotlinStdlibJars :
    path ∈ files.kotlinStdlibJars ↔ path ∈ files ∧
      ∃ version, path = ["lib", "resources", "kotlin", version, "lib", "kotlin-stdlib.jar"] := by
  rw [kotlinStdlibJars, select, List.mem_filter]
  simp only [List.any_cons, List.any_nil, Bool.or_false, Bool.not_false, Bool.and_true]
  apply and_congr_right
  intro _
  -- the pattern is matched name by name, with one star for the version
  constructor
  · intro hpath
    obtain ⟨inLib, rfl, hlib⟩ := (matches_literal (by decide)).mp hpath
    obtain ⟨inResources, rfl, hresources⟩ := (matches_literal (by decide)).mp hlib
    obtain ⟨inKotlin, rfl, hkotlin⟩ := (matches_literal (by decide)).mp hresources
    obtain ⟨version, inVersion, rfl, hversion⟩ := matches_star.mp hkotlin
    obtain ⟨inVersionLib, rfl, hjar⟩ := (matches_literal (by decide)).mp hversion
    obtain ⟨rest, rfl, hrest⟩ := (matches_literal (by decide)).mp hjar
    obtain rfl := List.isEmpty_iff.mp hrest
    exact ⟨version, rfl⟩
  · rintro ⟨version, rfl⟩
    simp [Matches]

theorem elideCompileFiles_subset_native :
    files.elideCompileFiles ⊆ files.elideNativeImageFiles := by
  intro path hpath
  rw [mem_elideCompileFiles] at hpath
  rw [mem_elideNativeImageFiles]
  tauto

theorem elideCompileFiles_subset_python : files.elideCompileFiles ⊆ files.elidePythonFiles := by
  intro path hpath
  rw [mem_elideCompileFiles] at hpath
  rw [mem_elidePythonFiles]
  tauto

theorem kotlinStdlibJars_subset : files.kotlinStdlibJars ⊆ files.elideCompileFiles := by
  intro path hpath
  obtain ⟨hmem, version, rfl⟩ := mem_kotlinStdlibJars.mp hpath
  rw [mem_elideCompileFiles]
  simp [hmem]

/-- What only `jextract` needs is below directories of its own. -/
theorem not_python_of_jextract
    (h : path ∈ files.below [["lib", "llvm"], ["lib", "resources", "jextract"]] []) :
    ¬ ["lib", "resources", "python"] <+: path ∧ ¬ ["lib", "maven"] <+: path := by
  rw [below, mem_select_below (by decide) (by decide)] at h
  obtain ⟨-, ⟨directory, hdirectory, rest, rfl⟩, -⟩ := h
  rcases List.mem_pair.mp hdirectory with rfl | rfl
  · simp
  · simp

end Distribution

/-- **The files of the tools.**  Whatever compiles is at hand for the other tools, too, and the
standard library for whatever compiles; Python and Maven are at hand for neither. -/
theorem tool_files (files : Distribution) (repo binExt version : String) :
    let info := elideToolchainImpl (files.toolchain repo binExt version)
    info.compileToolFiles ⊆ info.jextractToolFiles ∧ info.compileToolFiles ⊆ info.toolFiles ∧
      info.compileToolFiles ⊆ info.pythonToolFiles ∧ info.kotlinStdlibJars ⊆ info.compileToolFiles ∧
      (∀ path ∈ files.elideCompileFiles ++ files.elideJextractFiles ++ files.elideNativeImageFiles,
        ¬ ["lib", "resources", "python"] <+: path ∧ ¬ ["lib", "maven"] <+: path) := by
  intro info
  have hpaths : ∀ {first second : List (List String)}, first ⊆ second →
      Distribution.paths repo first ⊆ Distribution.paths repo second := fun h => List.map_subset _ h
  refine ⟨?_, ?_, ?_, ?_, ?_⟩
  · intro path hpath
    exact mem_distinct.mpr (List.mem_append_right _ hpath)
  · intro path hpath
    apply mem_distinct.mpr
    apply List.mem_cons.mpr
    exact (List.mem_cons.mp (mem_distinct.mp hpath)).imp_right fun h =>
      hpaths Distribution.elideCompileFiles_subset_native h
  · intro path hpath
    apply mem_distinct.mpr
    apply List.mem_cons.mpr
    exact (List.mem_cons.mp (mem_distinct.mp hpath)).imp_right fun h =>
      hpaths Distribution.elideCompileFiles_subset_python h
  · intro path hpath
    apply mem_distinct.mpr
    exact List.mem_cons_of_mem _
      (hpaths Distribution.kotlinStdlibJars_subset (mem_distinct.mp hpath))
  · intro path hpath
    rcases List.mem_append.mp hpath with hpath | hnative
    · rcases List.mem_append.mp hpath with hcompile | hjextract
      · exact (Distribution.mem_elideNativeImageFiles.mp
          (Distribution.elideCompileFiles_subset_native hcompile)).2.2
      · rcases List.mem_append.mp hjextract with hcompile | hmore
        · exact (Distribution.mem_elideNativeImageFiles.mp
            (Distribution.elideCompileFiles_subset_native hcompile)).2.2
        · exact Distribution.not_python_of_jextract hmore
    · exact (Distribution.mem_elideNativeImageFiles.mp hnative).2.2

end RulesElide.Toolchains
