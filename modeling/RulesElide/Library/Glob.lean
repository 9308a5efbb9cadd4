import Mathlib

/-!
# Globs

Patterns over paths, which are lists of names: `*` stands for a name, `**` for any number of
names.  `matches_below` says what a pattern means that asks for everything below a directory.
-/

namespace Glob

/-- The path matches the pattern. -/
def Matches : List String → List String → Bool
  | [], path => path.isEmpty
  | name :: pattern, path =>
      if name = "**" then path.tails.any (Matches pattern)
      else
        match path with
        | [] => false
        | first :: rest => (name = "*" || name = first) && Matches pattern rest

/-- The paths that match a pattern of the first list and none of the second. -/
def select (patterns excluded : List (List String)) (paths : List (List String)) :
    List (List String) :=
  paths.filter fun path => patterns.any (Matches · path) && !excluded.any (Matches · path)

/-- The name stands for itself. -/
def IsLiteral (name : String) : Prop :=
  name ≠ "*" ∧ name ≠ "**"

instance : DecidablePred IsLiteral := fun _ => inferInstanceAs (Decidable (_ ∧ _))

variable {name : String} {directory pattern path : List String} {paths : List (List String)}

theorem matches_literal (h : IsLiteral name) :
    Matches (name :: pattern) path = true ↔
      ∃ rest, path = name :: rest ∧ Matches pattern rest = true := by
  rw [Matches.eq_def]
  dsimp only
  rw [if_neg h.2]
  cases path with
  | nil => simp
  | cons first rest =>
      simp only [h.1, decide_false, Bool.false_or, Bool.and_eq_true, decide_eq_true_eq,
        List.cons.injEq]
      constructor
      · rintro ⟨rfl, hrest⟩
        exact ⟨rest, ⟨rfl, rfl⟩, hrest⟩
      · rintro ⟨rest', ⟨rfl, rfl⟩, hrest⟩
        exact ⟨rfl, hrest⟩

/-- `*` is one name. -/
theorem matches_star :
    Matches ("*" :: pattern) path = true ↔
      ∃ first rest, path = first :: rest ∧ Matches pattern rest = true := by
  rw [Matches.eq_def]
  dsimp only
  rw [if_neg (by decide)]
  cases path <;> simp

/-- Everything below a directory. -/
theorem matches_below (h : ∀ name ∈ directory, IsLiteral name) :
    Matches (directory ++ ["**"]) path = true ↔ directory <+: path := by
  induction directory generalizing path with
  | nil =>
      rw [List.nil_append, Matches.eq_def]
      dsimp only
      rw [if_pos rfl]
      refine iff_of_true ?_ List.nil_prefix
      -- the two stars also match no name at all
      rw [List.any_eq_true]
      exact ⟨[], (List.mem_tails _ _).mpr List.nil_suffix, rfl⟩
  | cons name directory ih =>
      have hrest : ∀ name ∈ directory, IsLiteral name :=
        fun name hname => h name (List.mem_cons_of_mem _ hname)
      rw [List.cons_append, matches_literal (h name List.mem_cons_self)]
      constructor
      · rintro ⟨rest, rfl, hmatches⟩
        exact List.cons_prefix_cons.mpr ⟨rfl, (ih hrest).mp hmatches⟩
      · rintro ⟨rest, rfl⟩
        exact ⟨directory ++ rest, rfl, (ih hrest).mpr (List.prefix_append _ _)⟩

/-- Everything below some directories, except what is below others. -/
theorem mem_select_below {directories excluded : List (List String)}
    (hdirectories : ∀ directory ∈ directories, ∀ name ∈ directory, IsLiteral name)
    (hexcluded : ∀ directory ∈ excluded, ∀ name ∈ directory, IsLiteral name) :
    path ∈ select (directories.map (· ++ ["**"])) (excluded.map (· ++ ["**"])) paths ↔
      path ∈ paths ∧ (∃ directory ∈ directories, directory <+: path) ∧
        ∀ directory ∈ excluded, ¬ directory <+: path := by
  -- a list of such patterns asks for a directory above the path
  have hany : ∀ directories : List (List String),
      (∀ directory ∈ directories, ∀ name ∈ directory, IsLiteral name) →
        (((directories.map (· ++ ["**"])).any (Matches · path)) = true ↔
          ∃ directory ∈ directories, directory <+: path) := by
    intro directories h
    rw [List.any_map, List.any_eq_true]
    constructor
    · rintro ⟨directory, hdirectory, hmatches⟩
      exact ⟨directory, hdirectory, (matches_below (h directory hdirectory)).mp hmatches⟩
    · rintro ⟨directory, hdirectory, hprefix⟩
      exact ⟨directory, hdirectory, (matches_below (h directory hdirectory)).mpr hprefix⟩
  rw [select, List.mem_filter, Bool.and_eq_true, Bool.not_eq_true', hany directories hdirectories,
    ← Bool.not_eq_true, hany excluded hexcluded]
  simp only [not_exists, not_and]

end Glob
