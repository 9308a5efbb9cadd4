import Mathlib

/-!
# Trees of files with symbolic links

The directories, files and links of a Unix file system.  A tree carries its own
well-formedness: whatever exists is in a directory and has a proper name.  Following a path is
defined as a function, `Files.walk`, and as a relation, `Files.Leads`, over which the facts about
it are proved by induction.
-/

namespace FileTree

/-- The names from the root down. -/
abbrev Names := List String

inductive Entry (Content : Type)
  | directory
  | file (content : Content)
  | link (isAbsolute : Bool) (target : Names)

def Entry.isDirectory {Content : Type} : Entry Content → Bool
  | directory => true
  | _ => false

/-- A name that something in a directory can have. -/
def Proper (name : String) : Prop :=
  name ≠ "." ∧ name ≠ ".." ∧ name ≠ "" ∧ '/' ∉ name.toList

instance (name : String) : Decidable (Proper name) :=
  inferInstanceAs (Decidable (_ ∧ _))

structure Files (Content : Type) where
  node : Names → Option (Entry Content)
  root : node [] = some .directory
  parent : ∀ path name, node (path ++ [name]) ≠ none → node path = some .directory
  proper : ∀ path name, node (path ++ [name]) ≠ none → Proper name

/-- Why a path leads nowhere. -/
inductive Failure
  | missing
  | notDirectory
  | loop
  deriving DecidableEq

variable {Content : Type}

namespace Files

def isDirectory (tree : Files Content) (path : Names) : Bool :=
  (tree.node path).any Entry.isDirectory

theorem isDirectory_iff {tree : Files Content} {path : Names} :
    tree.isDirectory path = true ↔ tree.node path = some .directory := by
  unfold isDirectory
  rcases tree.node path with _ | (_ | _ | _) <;> simp [Entry.isDirectory]

/-- What is above something that exists is a directory. -/
theorem directory_of_append (tree : Files Content) {path names : Names} (hnames : names ≠ [])
    (h : tree.node (path ++ names) ≠ none) : tree.node path = some .directory := by
  induction names using List.reverseRecOn with
  | nil => exact absurd rfl hnames
  | append_singleton names name ih =>
      rw [← List.append_assoc] at h
      have hparent := tree.parent _ _ h
      by_cases hempty : names = []
      · rw [hempty, List.append_nil] at hparent
        exact hparent
      · exact ih hempty (by rw [hparent]; exact Option.some_ne_none _)

theorem proper_of_mem (tree : Files Content) {path : Names} (h : tree.node path ≠ none)
    {name : String} (hname : name ∈ path) : Proper name := by
  obtain ⟨before, after, rfl⟩ := List.append_of_mem hname
  have hexists : tree.node (before ++ [name]) ≠ none := by
    by_cases hafter : after = []
    · rwa [hafter] at h
    · rw [List.append_cons] at h
      rw [tree.directory_of_append hafter h]
      exact Option.some_ne_none _
  exact tree.proper _ _ hexists

/-! ## Following a path -/

/-- Follows names from a directory, without symbolic links.  `create` says whether the last
name may be one that nothing has yet. -/
def walkFrom (tree : Files Content) (create : Bool)
    (follow : Names → Names → Except Failure Names) :
    Names → Names → Except Failure Names
  | path, [] => .ok path
  | path, name :: rest =>
      if name = "." then tree.walkFrom create follow path rest
      else if name = ".." then tree.walkFrom create follow path.dropLast rest
      else
        match tree.node (path ++ [name]) with
        | none => if create ∧ rest = [] then .ok (path ++ [name]) else .error .missing
        | some .directory => tree.walkFrom create follow (path ++ [name]) rest
        | some (.file _) => if rest = [] then .ok (path ++ [name]) else .error .notDirectory
        | some (.link isAbsolute target) =>
            follow (if isAbsolute then [] else path) (target ++ rest)

/-- Follows names and at most `links` symbolic links. -/
def walk (tree : Files Content) (create : Bool) : ℕ → Names → Names → Except Failure Names
  | 0 => tree.walkFrom create fun _ _ => .error .loop
  | links + 1 => tree.walkFrom create (tree.walk create links)

/-- Where names lead from a directory. -/
inductive Leads (tree : Files Content) (create : Bool) : Names → Names → Names → Prop
  | refl {path : Names} : Leads tree create path [] path
  | dot {path rest final : Names} (h : Leads tree create path rest final) :
      Leads tree create path ("." :: rest) final
  | dots {path rest final : Names} (h : Leads tree create path.dropLast rest final) :
      Leads tree create path (".." :: rest) final
  | new {path : Names} {name : String} (hcreate : create = true) (hdot : name ≠ ".")
      (hdots : name ≠ "..") (hnode : tree.node (path ++ [name]) = none) :
      Leads tree create path [name] (path ++ [name])
  | directory {path rest final : Names} {name : String}
      (hnode : tree.node (path ++ [name]) = some .directory)
      (h : Leads tree create (path ++ [name]) rest final) :
      Leads tree create path (name :: rest) final
  | file {path : Names} {name : String} {content : Content}
      (hnode : tree.node (path ++ [name]) = some (.file content)) :
      Leads tree create path [name] (path ++ [name])
  | link {path rest final target : Names} {name : String} {isAbsolute : Bool}
      (hnode : tree.node (path ++ [name]) = some (.link isAbsolute target))
      (h : Leads tree create (if isAbsolute then [] else path) (target ++ rest) final) :
      Leads tree create path (name :: rest) final

theorem leads_of_walkFrom {tree : Files Content} {create : Bool}
    {follow : Names → Names → Except Failure Names}
    (hfollow : ∀ path names final, follow path names = .ok final →
      Leads tree create path names final)
    {path names final : Names} (h : tree.walkFrom create follow path names = .ok final) :
    Leads tree create path names final := by
  induction names generalizing path with
  | nil =>
      cases h
      exact .refl
  | cons name rest ih =>
      rw [walkFrom] at h
      -- the cases of the walk: the two kinds of dots, then the node of the name
      split at h
      · rename_i hdot
        exact hdot ▸ .dot (ih h)
      · rename_i hdot
        split at h
        · rename_i hdots
          exact hdots ▸ .dots (ih h)
        · rename_i hdots
          split at h
          · rename_i hnode
            split at h
            · rename_i hnew
              cases h
              exact hnew.2 ▸ .new hnew.1 hdot hdots hnode
            · cases h
          · rename_i hnode
            exact .directory hnode (ih h)
          · rename_i hnode
            split at h
            · rename_i hlast
              cases h
              rw [hlast]
              exact .file hnode
            · cases h
          · rename_i hnode
            exact .link hnode (hfollow _ _ _ h)

/-- What `walk` finds is where the names lead. -/
theorem leads_of_walk {tree : Files Content} {create : Bool} {links : ℕ} {path names final : Names}
    (h : tree.walk create links path names = .ok final) : Leads tree create path names final := by
  induction links generalizing path names final with
  | zero => exact leads_of_walkFrom (fun _ _ _ hloop => by cases hloop) h
  | succ links ih => exact leads_of_walkFrom (fun _ _ _ => ih) h

/-- Directories are followed by their names. -/
theorem walkFrom_directory (tree : Files Content) (create : Bool)
    (follow : Names → Names → Except Failure Names) {path names : Names} (rest : Names)
    (h : tree.node (path ++ names) = some .directory) :
    tree.walkFrom create follow path (names ++ rest) =
      tree.walkFrom create follow (path ++ names) rest := by
  induction names generalizing path with
  | nil => rw [List.append_nil, List.nil_append]
  | cons name names ih =>
      rw [List.append_cons] at h
      -- a directory behind this name, so the name is a directory too
      have hexists : tree.node (path ++ [name] ++ names) ≠ none := by
        rw [h]
        exact Option.some_ne_none _
      obtain ⟨hdot, hdots, _⟩ := tree.proper_of_mem hexists
        (List.mem_append_left _ (List.mem_append_right _ List.mem_cons_self))
      have hnode : tree.node (path ++ [name]) = some .directory := by
        by_cases hempty : names = []
        · rwa [hempty, List.append_nil] at h
        · exact tree.directory_of_append hempty hexists
      rw [List.cons_append, walkFrom, if_neg hdot, if_neg hdots, hnode,
        List.append_cons path name names]
      exact ih h

theorem walk_directory (tree : Files Content) (create : Bool) (links : ℕ) {path names : Names}
    (rest : Names) (h : tree.node (path ++ names) = some .directory) :
    tree.walk create links path (names ++ rest) = tree.walk create links (path ++ names) rest := by
  cases links <;> exact tree.walkFrom_directory create _ rest h

/-- Where names lead, unless something new is created, something exists. -/
theorem Leads.exists {tree : Files Content} {path names final : Names}
    (h : Leads tree false path names final) (hpath : tree.node path = some .directory) :
    tree.node final ≠ none := by
  induction h with
  | refl => exact hpath ▸ Option.some_ne_none _
  | dot _ ih => exact ih hpath
  | @dots path _ _ _ ih =>
      apply ih
      -- above the root lies the root
      rcases List.eq_nil_or_concat path with rfl | ⟨parent, name, rfl⟩
      · exact tree.root
      · rw [List.concat_eq_append, List.dropLast_concat]
        rw [List.concat_eq_append] at hpath
        exact tree.parent _ _ (hpath ▸ Option.some_ne_none _)
  | new hcreate => cases hcreate
  | directory hnode _ ih => exact ih hnode
  | file hnode => exact hnode ▸ Option.some_ne_none _
  | @link path _ _ _ _ isAbsolute _ _ ih =>
      apply ih
      split
      · exact tree.root
      · exact hpath

/-! ## Trees and directories without links -/

/-- There is no symbolic link in the directory or below it. -/
def NoLinks (tree : Files Content) (directory : Names) : Prop :=
  ∀ path, directory <+: path → ∀ isAbsolute target, tree.node path ≠ some (.link isAbsolute target)

/-- Below a directory without links, names lead where they say. -/
theorem Leads.eq_append {tree : Files Content} {create : Bool} {directory path names final : Names}
    (h : Leads tree create path names final) (hlinks : tree.NoLinks directory)
    (hpath : directory <+: path) (hnames : ∀ name ∈ names, name ≠ "." ∧ name ≠ "..") :
    final = path ++ names := by
  induction h with
  | refl => exact (List.append_nil _).symm
  | dot => exact absurd rfl (hnames "." List.mem_cons_self).1
  | dots => exact absurd rfl (hnames ".." List.mem_cons_self).2
  | new | file => rfl
  | directory _ _ ih =>
      rw [ih (hpath.trans (List.prefix_append _ _))
        fun name hname => hnames name (List.mem_cons_of_mem _ hname), List.append_assoc]
      rfl
  | link hnode => exact absurd hnode (hlinks _ (hpath.trans (List.prefix_append _ _)) _ _)

/-- One name of a path that is read off without looking at any file. -/
def lexicalStep (path : Names) (name : String) : Names :=
  if name = "." then path else if name = ".." then path.dropLast else path ++ [name]

/-- Without links, names lead where they lead on paper. -/
theorem Leads.eq_lexical {tree : Files Content} {create : Bool} {path names final : Names}
    (h : Leads tree create path names final) (hlinks : tree.NoLinks []) :
    final = names.foldl lexicalStep path := by
  have hproper : ∀ {path : Names} {name : String}, tree.node (path ++ [name]) ≠ none →
      lexicalStep path name = path ++ [name] := by
    intro path name hexists
    obtain ⟨hdot, hdots, _⟩ := tree.proper _ _ hexists
    rw [lexicalStep, if_neg hdot, if_neg hdots]
  induction h with
  | refl => rfl
  | dot _ ih => exact ih
  | dots _ ih => exact ih
  | new _ hdot hdots => rw [List.foldl_cons, lexicalStep, if_neg hdot, if_neg hdots, List.foldl_nil]
  | directory hnode _ ih => rw [List.foldl_cons, hproper (hnode ▸ Option.some_ne_none _), ih]
  | file hnode => rw [List.foldl_cons, hproper (hnode ▸ Option.some_ne_none _), List.foldl_nil]
  | link hnode => exact absurd hnode (hlinks _ List.nil_prefix _ _)

/-! ## Changing a tree -/

/-- A directory or a file can be put here: nothing is lost but perhaps a file or a link. -/
structure Free (tree : Files Content) (path : Names) : Prop where
  nonempty : path ≠ []
  parent : tree.isDirectory path.dropLast = true
  proper : ∀ name ∈ path.getLast?, Proper name
  free : tree.isDirectory path = false

instance (tree : Files Content) (path : Names) : Decidable (tree.Free path) :=
  decidable_of_iff (path ≠ [] ∧ tree.isDirectory path.dropLast = true ∧
      (∀ name ∈ path.getLast?, Proper name) ∧ tree.isDirectory path = false)
    ⟨fun ⟨h₁, h₂, h₃, h₄⟩ => ⟨h₁, h₂, h₃, h₄⟩, fun ⟨h₁, h₂, h₃, h₄⟩ => ⟨h₁, h₂, h₃, h₄⟩⟩

def put (tree : Files Content) (path : Names) (node : Entry Content) (h : tree.Free path) :
    Files Content where
  node := Function.update tree.node path (some node)
  root := by
    rw [Function.update_of_ne h.nonempty.symm, tree.root]
  parent above name hexists := by
    by_cases hnew : above ++ [name] = path
    · have hparent := isDirectory_iff.mp h.parent
      rw [← hnew, List.dropLast_concat] at hparent
      rw [Function.update_of_ne (fun heq => by simp [heq] at hnew), hparent]
    · rw [Function.update_of_ne hnew] at hexists
      have hdirectory := tree.parent _ _ hexists
      have hother : above ≠ path := by
        rintro rfl
        exact absurd (isDirectory_iff.mpr hdirectory) (by rw [h.free]; decide)
      rw [Function.update_of_ne hother, hdirectory]
  proper above name hexists := by
    by_cases hnew : above ++ [name] = path
    · exact h.proper name (by rw [← hnew]; simp)
    · rw [Function.update_of_ne hnew] at hexists
      exact tree.proper _ _ hexists

theorem node_put {tree : Files Content} {path : Names} {node : Entry Content} (h : tree.Free path) :
    (tree.put path node h).node = Function.update tree.node path (some node) := rfl

/-- Without everything that is inside a path. -/
def prune (tree : Files Content) (path : Names) (h : path ≠ []) : Files Content where
  node other := if path <+: other then none else tree.node other
  root := by
    rw [if_neg (fun hbegins => h (List.prefix_nil.mp hbegins)), tree.root]
  parent above name hexists := by
    split at hexists
    · exact absurd rfl hexists
    · rename_i hother
      rw [if_neg fun hbegins => hother (hbegins.trans (List.prefix_append _ _))]
      exact tree.parent _ _ hexists
  proper above name hexists := by
    split at hexists
    · exact absurd rfl hexists
    · exact tree.proper _ _ hexists

theorem NoLinks.put {tree : Files Content} {directory path : Names} {node : Entry Content}
    (h : tree.NoLinks directory) (hfree : tree.Free path)
    (hnode : ∀ isAbsolute target, node ≠ .link isAbsolute target) :
    (tree.put path node hfree).NoLinks directory := by
  intro other hother isAbsolute target hlink
  by_cases hnew : other = path
  · rw [hnew, node_put, Function.update_self] at hlink
    exact hnode _ _ (Option.some.inj hlink)
  · rw [node_put, Function.update_of_ne hnew] at hlink
    exact h other hother _ _ hlink

theorem NoLinks.below {tree : Files Content} {directory : Names} (h : tree.NoLinks []) :
    tree.NoLinks directory :=
  fun path _ => h path List.nil_prefix

/-- Only the root. -/
def empty : Files Content where
  node path := if path = [] then some .directory else none
  root := rfl
  parent path name h :=
    absurd (if_neg (List.append_ne_nil_of_right_ne_nil path (List.cons_ne_nil name []))) h
  proper path name h :=
    absurd (if_neg (List.append_ne_nil_of_right_ne_nil path (List.cons_ne_nil name []))) h

theorem noLinks_empty : (empty : Files Content).NoLinks [] := by
  intro path _ isAbsolute target h
  unfold empty at h
  dsimp only at h
  split at h
  · cases h
  · cases h

end Files

end FileTree
