import RulesElide.Toolchains.Extension

/-!
# The order of the modules

Modules come in the order of a traversal of the module graph.  Versions are gathered from all of
them, but only their maximum is used, and everything else comes from the root module.  So
`elideImpl_perm` says that no order is better than another.
-/

namespace RulesElide.Toolchains

/-! ## What the extension uses of a request -/

/-- What a request takes from the root module only. -/
structure RootSettings where
  channel : String
  repoPrefix : String
  urlTemplate : String
  pythonUrlTemplate : String
  useTag : Option UseTag

def Request.root (request : Request) : RootSettings where
  channel := request.channel
  repoPrefix := request.repoPrefix
  urlTemplate := request.urlTemplate
  pythonUrlTemplate := request.pythonUrlTemplate
  useTag := request.useTag

/-- Two requests that select one version and agree in every setting. -/
structure Agree (request request' : Request) : Prop where
  version : selectVersion request.versions = selectVersion request'.versions
  python : request.python = request'.python
  root : request.root = request'.root

namespace Agree

variable {request request' : Request}

theorem channel (h : Agree request request') : request.channel = request'.channel :=
  congrArg RootSettings.channel h.root

theorem repoPrefix (h : Agree request request') : request.repoPrefix = request'.repoPrefix :=
  congrArg RootSettings.repoPrefix h.root

theorem urlTemplate (h : Agree request request') : request.urlTemplate = request'.urlTemplate :=
  congrArg RootSettings.urlTemplate h.root

theorem pythonUrlTemplate (h : Agree request request') :
    request.pythonUrlTemplate = request'.pythonUrlTemplate :=
  congrArg RootSettings.pythonUrlTemplate h.root

theorem useTag (h : Agree request request') : request.useTag = request'.useTag :=
  congrArg RootSettings.useTag h.root

theorem wireVersion_eq (h : Agree request request') (tables : Tables) (version : String) :
    wireVersion tables request version = wireVersion tables request' version := by
  unfold wireVersion pinnedDownloads
  rw [h.python, h.repoPrefix, h.channel, h.urlTemplate, h.pythonUrlTemplate]

/-- Requests that agree install the same. -/
theorem wireInstall_eq (h : Agree request request') (tables : Tables) :
    wireInstall tables request = wireInstall tables request' := by
  unfold wireInstall
  rw [h.version, h.repoPrefix]
  cases selectVersion request'.versions with
  | none => rfl
  | some version => exact h.wireVersion_eq tables version

end Agree

/-! ## What comes from which module -/

theorem addInstall_root (request : Request) (tag : InstallTag) :
    (request.addInstall false tag).root = request.root := rfl

theorem addInstall_root_congr {request request' : Request} (h : request.root = request'.root)
    (tag : InstallTag) :
    (request.addInstall true tag).root = (request'.addInstall true tag).root := by
  have huse : request.useTag = request'.useTag := congrArg RootSettings.useTag h
  simp [Request.addInstall, Request.root, huse]

theorem foldl_addInstall_root (tags : List InstallTag) (request : Request) :
    (tags.foldl (Request.addInstall false) request).root = request.root := by
  induction tags generalizing request with
  | nil => rfl
  | cons tag tags ih => rw [List.foldl_cons, ih, addInstall_root]

theorem foldl_addInstall_root_congr (tags : List InstallTag) {request request' : Request}
    (h : request.root = request'.root) :
    (tags.foldl (Request.addInstall true) request).root =
      (tags.foldl (Request.addInstall true) request').root := by
  induction tags generalizing request request' with
  | nil => exact h
  | cons tag tags ih => exact ih (addInstall_root_congr h tag)

theorem addModule_root {module : Module} (hroot : module.isRoot = false) (request : Request) :
    (request.addModule module).root = request.root := by
  unfold Request.addModule
  rw [hroot]
  exact foldl_addInstall_root module.install request

theorem addModule_root_congr {module : Module} (hroot : module.isRoot = true)
    {request request' : Request} (h : request.root = request'.root) :
    (request.addModule module).root = (request'.addModule module).root := by
  have hinstall := foldl_addInstall_root_congr module.install h
  unfold Request.addModule
  simp only [hroot, if_true]
  simp only [Request.root, RootSettings.mk.injEq] at hinstall ⊢
  obtain ⟨hchannel, hrepo, hurl, hpython, huse⟩ := hinstall
  exact ⟨hchannel, hrepo, hurl, hpython, by rw [huse]⟩

/-- Only root modules change the settings. -/
theorem foldl_addModule_root (modules : List Module) {request request' : Request}
    (h : request.root = request'.root) :
    (modules.foldl Request.addModule request).root =
      ((modules.filter Module.isRoot).foldl Request.addModule request').root := by
  induction modules generalizing request request' with
  | nil => exact h
  | cons module modules ih =>
      rw [List.foldl_cons]
      cases hroot : module.isRoot with
      | false =>
          rw [List.filter_cons_of_neg (by simp [hroot])]
          exact ih ((addModule_root hroot request).trans h)
      | true =>
          rw [List.filter_cons_of_pos hroot, List.foldl_cons]
          exact ih (addModule_root_congr hroot h)

theorem foldl_addInstall_python (isRoot : Bool) (tags : List InstallTag) (request : Request) :
    (tags.foldl (Request.addInstall isRoot) request).python =
      (request.python || tags.any InstallTag.python) := by
  induction tags generalizing request with
  | nil => simp
  | cons tag tags ih =>
      have hstep : (request.addInstall isRoot tag).python = (request.python || tag.python) := by
        unfold Request.addInstall
        split <;> rfl
      rw [List.foldl_cons, ih, hstep, List.any_cons, Bool.or_assoc]

theorem addModule_python (request : Request) (module : Module) :
    (request.addModule module).python =
      (request.python || module.install.any InstallTag.python) := by
  have hinstall := foldl_addInstall_python module.isRoot module.install request
  unfold Request.addModule
  dsimp only
  split
  · exact hinstall
  · exact hinstall

/-- Python is asked for when any module asks for it. -/
theorem foldl_addModule_python (modules : List Module) (request : Request) :
    (modules.foldl Request.addModule request).python =
      (request.python || modules.any fun module => module.install.any InstallTag.python) := by
  induction modules generalizing request with
  | nil => simp
  | cons module modules ih =>
      rw [List.foldl_cons, ih, addModule_python, List.any_cons, Bool.or_assoc]

/-! ## Permutations of the modules -/

theorem installVersions_perm {modules modules' : List Module} (h : modules.Perm modules') :
    (installVersions modules).Perm (installVersions modules') :=
  h.flatMap_right _

/-- At most one root module, wherever it stands. -/
theorem filter_isRoot_eq {modules modules' : List Module} (h : modules.Perm modules')
    (hroot : (modules.filter Module.isRoot).length ≤ 1) :
    modules.filter Module.isRoot = modules'.filter Module.isRoot := by
  have hperm := h.filter Module.isRoot
  match hroots : modules.filter Module.isRoot, hroot with
  | [], _ =>
      rw [hroots] at hperm
      exact (List.nil_perm.mp hperm).symm
  | [root], _ =>
      rw [hroots] at hperm
      exact List.singleton_perm.mp hperm

theorem agree_of_perm {modules modules' : List Module} (h : modules.Perm modules')
    (hroot : (modules.filter Module.isRoot).length ≤ 1) :
    Agree (Request.ofModules modules) (Request.ofModules modules') where
  version := by
    rw [ofModules_versions, ofModules_versions]
    exact selectVersion_perm (installVersions_perm h)
  python := by
    rw [Request.ofModules, Request.ofModules, foldl_addModule_python, foldl_addModule_python,
      h.any_eq]
  root := by
    rw [Request.ofModules, Request.ofModules, foldl_addModule_root modules rfl,
      foldl_addModule_root modules' rfl, filter_isRoot_eq h hroot]

theorem elideImpl_eq_of_agree {tables : Tables} {host : Host} {modules modules' : List Module}
    (h : Agree (Request.ofModules modules) (Request.ofModules modules')) :
    elideImpl tables host modules = elideImpl tables host modules' := by
  unfold elideImpl
  dsimp only
  rw [h.useTag]
  cases (Request.ofModules modules').useTag with
  | none => exact h.wireInstall_eq tables
  | some tag => rfl

/-- **No order is better than another.**  With one root module at most, every permutation of the
modules fails or wires alike, selects the same version and agrees in every setting.  The version
is one of those asked for, and selecting is compatible with concatenation. -/
theorem elideImpl_perm (tables : Tables) (host : Host) (modules modules' : List Module)
    (h : modules.Perm modules') (hroot : (modules.filter Module.isRoot).length ≤ 1) :
    elideImpl tables host modules = elideImpl tables host modules' ∧
      Agree (Request.ofModules modules) (Request.ofModules modules') ∧
      (∀ version, selectVersion (Request.ofModules modules).versions = some version →
        ∃ module ∈ modules, ∃ tag ∈ module.install, tag.version = version) ∧
      ∀ first second : List String, first ≠ [] → second ≠ [] →
        ∃ version version', selectVersion first = some version ∧
          selectVersion second = some version' ∧
            selectVersion (first ++ second) = selectVersion [version, version'] := by
  have hagree := agree_of_perm h hroot
  -- the extension reads the modules only through the request
  refine ⟨elideImpl_eq_of_agree hagree, hagree, ?_, ?_⟩
  · intro version hversion
    have hmem := (selectVersion_spec hversion).1
    rw [ofModules_versions] at hmem
    obtain ⟨module, hmodule, hmem⟩ := List.mem_flatMap.mp hmem
    obtain ⟨tag, htag, hversion⟩ := List.mem_map.mp hmem
    exact ⟨module, hmodule, tag, htag, hversion⟩
  · intro first second hfirst hsecond
    obtain ⟨version, hversion⟩ := exists_selectVersion hfirst
    obtain ⟨version', hversion'⟩ := exists_selectVersion hsecond
    exact ⟨version, version', hversion, hversion', selectVersion_append hversion hversion'⟩

/-- A root module and a dependency that asks for a malformed version. -/
def mixedModules : List Module :=
  [⟨true, [{ channel := "stable" }], []⟩, ⟨false, [{ version := "1.x", python := true }], []⟩]

theorem elideImpl_perm_sample :
    elideImpl sampleTables ⟨"Linux", "amd64"⟩ mixedModules =
      elideImpl sampleTables ⟨"Linux", "amd64"⟩ mixedModules.reverse ∧
      Agree (Request.ofModules mixedModules) (Request.ofModules mixedModules.reverse) ∧
      (∀ version, selectVersion (Request.ofModules mixedModules).versions = some version →
        ∃ module ∈ mixedModules, ∃ tag ∈ module.install, tag.version = version) ∧
      ∀ first second : List String, first ≠ [] → second ≠ [] →
        ∃ version version', selectVersion first = some version ∧
          selectVersion second = some version' ∧
            selectVersion (first ++ second) = selectVersion [version, version'] :=
  elideImpl_perm sampleTables ⟨"Linux", "amd64"⟩ mixedModules mixedModules.reverse
    (List.reverse_perm mixedModules).symm (by decide)

end RulesElide.Toolchains
