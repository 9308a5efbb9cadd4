import RulesElide.Library.Dedup

/-!
# Enriching the SBOM

`sbom_enrich.py` adds the direct dependencies of `MODULE.bazel` to an SPDX document.  The
document identifies a package by its SPDX id, which is made of the sanitised module name, and
`enrich` skips a dependency whose SPDX id is there.  `enriches_iff` says when it skips none.
-/

namespace RulesElide.SbomEnrich

/-! ## Documents -/

inductive Json where
  | null
  | bool (value : Bool)
  | number (value : String)
  | string (value : String)
  | array (items : List Json)
  | object (fields : List (String × Json))

/-- A package, with the fields besides its SPDX id in the order they stand in. -/
structure Package where
  spdxId : Option String
  fields : List (String × Json)

structure Document where
  documentDescribes : Option (List String) := none
  packages : Option (List Package) := none
  relationships : Option (List (List (String × Json))) := none
  fields : List (String × Json) := []

namespace Document

def existingPackages (document : Document) : List Package :=
  document.packages.getD []

def existingRelationships (document : Document) : List (List (String × Json)) :=
  document.relationships.getD []

/-- `root_id`. -/
def rootId (document : Document) : String :=
  match document.documentDescribes with
  | some (root :: _) => root
  | _ => "SPDXRef-DOCUMENT"

/-- `existing`, where a package without an SPDX id contributes `None`. -/
def existing (document : Document) : List (Option String) :=
  document.existingPackages.map Package.spdxId

end Document

/-! ## `enrich` -/

/-- The class `[A-Za-z0-9.-]`. -/
def isIdChar (c : Char) : Bool :=
  ('A' ≤ c && c ≤ 'Z') || ('a' ≤ c && c ≤ 'z') || ('0' ≤ c && c ≤ '9') || c == '.' || c == '-'

/-- `re.sub(r"[^A-Za-z0-9.-]", "-", name)`. -/
def sanitize (name : String) : String :=
  String.ofList (name.toList.map fun c => if isIdChar c then c else '-')

def spdxid (name : String) : String :=
  "SPDXRef-Package-bazeldep-" ++ sanitize name

def package (dependency : String × String) : Package where
  spdxId := some (spdxid dependency.1)
  fields :=
    [("name", .string dependency.1),
     ("versionInfo", .string dependency.2),
     ("downloadLocation", .string "NOASSERTION"),
     ("filesAnalyzed", .bool false),
     ("externalRefs", .array [.object
       [("referenceCategory", .string "PACKAGE-MANAGER"),
        ("referenceType", .string "purl"),
        ("referenceLocator",
          .string ("pkg:generic/bazel/" ++ dependency.1 ++ "@" ++ dependency.2))]])]

def relationship (rootId spdxid : String) : List (String × Json) :=
  [("spdxElementId", .string rootId),
   ("relationshipType", .string "DEPENDS_ON"),
   ("relatedSpdxElement", .string spdxid)]

/-- What the loop of `enrich` changes. -/
structure LoopState where
  existing : List (Option String)
  packages : List Package
  relationships : List (List (String × Json))

/-- One round of the loop. -/
def enrichOne (rootId : String) (state : LoopState) (dependency : String × String) : LoopState :=
  if some (spdxid dependency.1) ∈ state.existing then
    state
  else
    { existing := state.existing ++ [some (spdxid dependency.1)]
      packages := state.packages ++ [package dependency]
      relationships := state.relationships ++ [relationship rootId (spdxid dependency.1)] }

def enrich (spdx : Document) (deps : List (String × String)) : Document :=
  let final := deps.foldl (enrichOne spdx.rootId)
    { existing := spdx.existing
      packages := spdx.existingPackages
      relationships := spdx.existingRelationships }
  { spdx with packages := some final.packages, relationships := some final.relationships }

/-! ## The dependencies that are added -/

/-- What a dependency is identified by in a document. -/
def identity (dependency : String × String) : Option String :=
  some (spdxid dependency.1)

/-- The dependencies that `enrich` does not skip. -/
def addedDeps (spdx : Document) (deps : List (String × String)) : List (String × String) :=
  Dedup.fresh identity spdx.existing deps

theorem foldl_enrichOne (rootId : String) (deps : List (String × String)) (state : LoopState) :
    deps.foldl (enrichOne rootId) state =
      { existing := state.existing ++ (Dedup.fresh identity state.existing deps).map identity
        packages := state.packages ++ (Dedup.fresh identity state.existing deps).map package
        relationships := state.relationships ++
          (Dedup.fresh identity state.existing deps).map fun dependency =>
            relationship rootId (spdxid dependency.1) } := by
  induction deps generalizing state with
  | nil => simp [Dedup.fresh]
  | cons dependency deps ih =>
      rw [List.foldl_cons, ih]
      -- a seen identity leaves the state as it is, in the loop and in `fresh`
      by_cases hseen : some (spdxid dependency.1) ∈ state.existing
      · have hsame : enrichOne rootId state dependency = state := if_pos hseen
        rw [hsame, Dedup.fresh, if_pos (show identity dependency ∈ state.existing from hseen)]
      · rw [enrichOne, if_neg hseen, Dedup.fresh,
          if_neg (show identity dependency ∉ state.existing from hseen)]
        simp [identity]

theorem enrich_eq (spdx : Document) (deps : List (String × String)) :
    enrich spdx deps =
      { spdx with
        packages := some (spdx.existingPackages ++ (addedDeps spdx deps).map package)
        relationships := some (spdx.existingRelationships ++
          (addedDeps spdx deps).map fun dependency =>
            relationship spdx.rootId (spdxid dependency.1)) } := by
  simp only [enrich, foldl_enrichOne, addedDeps]

@[simp]
theorem existing_enrich (spdx : Document) (deps : List (String × String)) :
    (enrich spdx deps).existing = spdx.existing ++ (addedDeps spdx deps).map identity := by
  rw [enrich_eq]
  simp only [Document.existing, Document.existingPackages, Option.getD_some, List.map_append,
    List.map_map]
  rfl

/-- The dependencies of a list that was added are all there. -/
theorem addedDeps_enrich (spdx : Document) (deps : List (String × String)) :
    addedDeps (enrich spdx deps) deps = [] := by
  refine Dedup.fresh_eq_nil fun dependency hdependency => ?_
  rw [existing_enrich]
  exact Dedup.mem_seen_of_mem hdependency

/-- A second run changes nothing. -/
theorem enrich_enrich (spdx : Document) (deps : List (String × String)) :
    enrich (enrich spdx deps) deps = enrich spdx deps := by
  rw [enrich_eq (enrich spdx deps), addedDeps_enrich]
  simp [enrich_eq, Document.existingPackages, Document.existingRelationships]

/-! ## Documents with every dependency -/

/-- `package` stands for the dependency: it has the name and the version of it. -/
def Describes (dependency : String × String) (package : Package) : Prop :=
  package.fields.lookup "name" = some (.string dependency.1) ∧
    package.fields.lookup "versionInfo" = some (.string dependency.2)

/-- `relationship` says that the root depends on `package`. -/
def DependsOn (rootId : String) (package : Package) (relationship : List (String × Json)) : Prop :=
  ∃ spdxid, package.spdxId = some spdxid ∧
    relationship.lookup "spdxElementId" = some (.string rootId) ∧
    relationship.lookup "relationshipType" = some (.string "DEPENDS_ON") ∧
    relationship.lookup "relatedSpdxElement" = some (.string spdxid)

/-- `enriched` is the document with one package for each dependency, in order, and one
relationship of the root to it, after what was there. -/
structure Enriches (document enriched : Document) (deps : List (String × String)) : Prop where
  describes_eq : enriched.documentDescribes = document.documentDescribes
  fields_eq : enriched.fields = document.fields
  added : ∃ packages relationships,
    enriched.packages = some (document.existingPackages ++ packages) ∧
    enriched.relationships = some (document.existingRelationships ++ relationships) ∧
    List.Forall₂ Describes deps packages ∧
    List.Forall₂ (DependsOn document.rootId) packages relationships ∧
    (packages.map Package.spdxId).Nodup ∧
    ∀ package ∈ packages, package.spdxId ∉ document.existing

theorem describes_package (dependency : String × String) :
    Describes dependency (package dependency) :=
  ⟨by simp [package], by simp [package, List.lookup]⟩

theorem dependsOn_relationship (rootId : String) (dependency : String × String) :
    DependsOn rootId (package dependency) (relationship rootId (spdxid dependency.1)) :=
  ⟨spdxid dependency.1, rfl, by simp [relationship],
    by simp [relationship, List.lookup], by simp [relationship, List.lookup]⟩

theorem map_spdxId_package (deps : List (String × String)) :
    (deps.map package).map Package.spdxId = deps.map identity := by
  rw [List.map_map]
  rfl

/-- The packages of an enriched document are as many as the dependencies, so none is skipped. -/
theorem addedDeps_eq_of_enriches {document : Document} {deps : List (String × String)}
    (h : Enriches document (enrich document deps) deps) : addedDeps document deps = deps := by
  obtain ⟨packages, relationships, hpackages, -, hdescribes, -, -, -⟩ := h.added
  have happended : (addedDeps document deps).map package = packages := by
    rw [enrich_eq] at hpackages
    exact List.append_cancel_left (Option.some.inj hpackages)
  have hlength : (addedDeps document deps).length = deps.length := by
    rw [hdescribes.length_eq, ← happended, List.length_map]
  exact Dedup.fresh_sublist.eq_of_length hlength

theorem enriches_of_addedDeps_eq {document : Document} {deps : List (String × String)}
    (h : addedDeps document deps = deps) : Enriches document (enrich document deps) deps where
  describes_eq := by rw [enrich_eq]
  fields_eq := by rw [enrich_eq]
  added := by
    obtain ⟨hnodup, hnew⟩ := Dedup.fresh_eq_self_iff.mp h
    refine ⟨deps.map package,
      deps.map fun dependency => relationship document.rootId (spdxid dependency.1),
      by rw [enrich_eq, h], by rw [enrich_eq, h], ?_, ?_, ?_, ?_⟩
    · rw [List.forall₂_map_right_iff, List.forall₂_same]
      exact fun dependency _ => describes_package dependency
    · rw [List.forall₂_map_right_iff, List.forall₂_map_left_iff, List.forall₂_same]
      exact fun dependency _ => dependsOn_relationship document.rootId dependency
    · rw [map_spdxId_package]
      exact hnodup
    · intro added hadded
      obtain ⟨dependency, hdependency, rfl⟩ := List.mem_map.mp hadded
      exact hnew dependency hdependency

/-- `enrich` drops no dependency exactly when the SPDX ids made of the names are different and
none of them is in the document.  Adding the same list again changes nothing in any case. -/
theorem enriches_iff (document : Document) (deps : List (String × String)) :
    (Enriches document (enrich document deps) deps ∧
        enrich (enrich document deps) deps = enrich document deps) ↔
      (deps.map fun dependency => spdxid dependency.1).Nodup ∧
        ∀ dependency ∈ deps, some (spdxid dependency.1) ∉ document.existing := by
  have hidentities : (deps.map identity).Nodup ↔
      (deps.map fun dependency => spdxid dependency.1).Nodup := by
    have hmap : deps.map identity = (deps.map fun dependency => spdxid dependency.1).map some := by
      rw [List.map_map]
      rfl
    rw [hmap, List.nodup_map_iff (Option.some_injective _)]
  constructor
  · rintro ⟨henriches, -⟩
    obtain ⟨hnodup, hnew⟩ := Dedup.fresh_eq_self_iff.mp (addedDeps_eq_of_enriches henriches)
    exact ⟨hidentities.mp hnodup, hnew⟩
  · rintro ⟨hnodup, hnew⟩
    -- nothing is skipped, so every dependency is added
    have hall : addedDeps document deps = deps :=
      Dedup.fresh_eq_self_iff.mpr ⟨hidentities.mpr hnodup, hnew⟩
    exact ⟨enriches_of_addedDeps_eq hall, enrich_enrich document deps⟩

/-- The modules `a_b` and `a-b` have one SPDX id, and the second is skipped. -/
theorem same_id_skipped :
    ¬ ∀ (document : Document) (deps : List (String × String)),
      (deps.map Prod.fst).Nodup →
      (∀ dependency ∈ deps, ∀ version, package (dependency.1, version) ∉
        document.existingPackages) →
      Enriches document (enrich document deps) deps ∧
        enrich (enrich document deps) deps = enrich document deps := by
  intro h
  have hall := addedDeps_eq_of_enriches
    (h {} [("a_b", "1"), ("a-b", "2")] (by decide) (by simp [Document.existingPackages])).1
  have hskipped : addedDeps {} [("a_b", "1"), ("a-b", "2")] = [("a_b", "1")] := by decide
  rw [hskipped] at hall
  exact absurd hall (by decide)

end RulesElide.SbomEnrich
