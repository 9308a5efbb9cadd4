import RulesElide.Platform.Strings

/-!
# Paths and files

Paths of a Unix file system and the files on it, as `java.nio.file` shows them.  A path is
the list of its names from the root down, so a path is inside a directory when the directory
is a prefix of it.
-/

namespace RulesElide

/-- An absolute path. -/
abbrev Path := List String

-- the membership tests of definitions refer to this instance by its name
instance : LawfulBEq Path := inferInstance

namespace Path

/-- `path.toString()`. -/
def toString (path : Path) : String :=
  "/" ++ "/".intercalate path

/-- `Path.of(text)`: whether the path is absolute, and its names. -/
def of (text : String) : Except Throwable (Bool × List String) :=
  if Char.ofNat 0 ∈ text.toList then .error (.illegalArgument "Nul character not allowed")
  else .ok (startsWith text "/", ((text.toList.splitOn '/').map String.ofList).filter (· ≠ ""))

/-- `path.normalize()` of an absolute path; the parent of the root is the root. -/
def normalize (names : List String) : Path :=
  names.foldl (fun path name =>
    if name = "." then path else if name = ".." then path.dropLast else path ++ [name]) []

/-- `Path.of(text).toAbsolutePath().normalize()`. -/
def absolute (workingDirectory : Path) (text : String) : Except Throwable Path := do
  let (isAbsolute, names) ← of text
  .ok (normalize (if isAbsolute then names else workingDirectory ++ names))

/-- `first.compareTo(second) <= 0`: the bytes of the paths in lexicographic order. -/
def compareToLe (first second : Path) : Prop :=
  (getBytes first.toString).map UInt8.toNat ≤ (getBytes second.toString).map UInt8.toNat

instance : DecidableRel compareToLe := fun first second =>
  inferInstanceAs (Decidable
    ((getBytes first.toString).map UInt8.toNat ≤ (getBytes second.toString).map UInt8.toNat))

/-- A name in a path that was read off a text. -/
def IsName (name : String) : Prop :=
  name ≠ "" ∧ '/' ∉ name.toList

/-- The parts between the slashes that are not empty. -/
def names (text : String) : List String :=
  ((text.toList.splitOn '/').map String.ofList).filter (· ≠ "")

theorem isName_of_mem_names {text name : String} (h : name ∈ names text) : IsName name := by
  obtain ⟨hname, hne⟩ := List.mem_filter.mp h
  exact ⟨of_decide_eq_true hne, notMem_of_mem_parts hname⟩

/-- The names can be read off the text of a path. -/
theorem names_toString {path : Path} (h : ∀ name ∈ path, IsName name) :
    names path.toString = path := by
  have hslash : path.toString.toList = '/' :: ("/".intercalate path).toList := by
    rw [toString, String.toList_append]
    rfl
  -- the text begins with a slash, so its first part is empty and drops out
  have hsplit :
    path.toString.toList.splitOn '/' = [] :: ("/".intercalate path).toList.splitOn '/' := by
    rw [hslash, List.splitOn, List.splitOnP_cons_eq_if_modifyHead, if_pos (by simp)]
    rfl
  have hnames : path.filter (· ≠ "") = path :=
    List.filter_eq_self.mpr fun name hname => decide_eq_true (h name hname).1
  rw [names, hsplit, List.map_cons, List.filter_cons_of_neg (by simp)]
  cases path with
  | nil => rfl
  | cons first path =>
      have hparts := parts_intercalate (fun name hname => (h name hname).2)
        (List.cons_ne_nil first path)
      rw [parts, show '/'.toString = "/" from rfl] at hparts
      rw [hparts, hnames]

theorem toString_injective {first second : Path} (hfirst : ∀ name ∈ first, IsName name)
    (hsecond : ∀ name ∈ second, IsName name) (h : first.toString = second.toString) :
    first = second := by
  rw [← names_toString hfirst, h, names_toString hsecond]

end Path

/-- What a path can be.  A jar is kept as the list of its entries. -/
inductive Node
  | directory
  | file (content : Bytes)
  | jar (entries : List (String × Bytes))
  deriving DecidableEq

/-- `Files.isRegularFile`. -/
def Node.isRegularFile : Node → Bool
  | .directory => false
  | _ => true

/-- The bytes of a file.  Nothing in the modelled code reads a jar back. -/
def Node.content : Node → Bytes
  | .file content => content
  | _ => []

/-- The files and directories that exist. -/
abbrev Disk := List (Path × Node)

namespace Disk

def lookup (disk : Disk) (path : Path) : Option Node :=
  (disk.find? fun entry => entry.1 = path).map Prod.snd

/-- `Files.exists`; the root directory always does. -/
def holds (disk : Disk) (path : Path) : Bool :=
  path.isEmpty || (disk.lookup path).isSome

def write (disk : Disk) (path : Path) (node : Node) : Disk :=
  (path, node) :: disk.filter fun entry => entry.1 ≠ path

def erase (disk : Disk) (paths : List Path) : Disk :=
  disk.filter fun entry => entry.1 ∉ paths

/-- The entries inside a directory, itself included. -/
def inside (disk : Disk) (directory : Path) : Disk :=
  disk.filter fun entry => directory <+: entry.1

/-- The regular files inside a directory. -/
def filesInside (disk : Disk) (directory : Path) : List Path :=
  ((disk.inside directory).filter fun entry => entry.2.isRegularFile).map Prod.fst

/-- `Files.walk(root)`, sorted in reverse: what is in a directory comes before it. -/
def walkReversed (disk : Disk) (root : Path) : List Path :=
  ((disk.inside root).map Prod.fst).insertionSort fun first second => Path.compareToLe second first

/-- The directories `Files.createDirectories(path)` has to create. -/
def missingDirectories (disk : Disk) (path : Path) : List Path :=
  path.inits.filter fun directory => !disk.holds directory

/-! ## Looking up -/

theorem lookup_write (disk : Disk) (path : Path) (node : Node) (other : Path) :
    (disk.write path node).lookup other =
      if other = path then some node else disk.lookup other := by
  unfold lookup write
  split
  · rename_i heq
    rw [List.find?_cons_of_pos (by simp [heq])]
    rfl
  · rename_i hne
    rw [List.find?_cons_of_neg (by simpa using fun heq => hne heq.symm), List.find?_filter]
    congr 2
    funext entry
    grind

theorem write_write (disk : Disk) (path : Path) (node node' : Node) :
    (disk.write path node).write path node' = disk.write path node' := by
  unfold write
  rw [List.filter_cons_of_neg (by simp), List.filter_filter]
  simp only [Bool.and_self]

theorem lookup_erase (disk : Disk) (paths : List Path) (other : Path) :
    (disk.erase paths).lookup other = if other ∈ paths then none else disk.lookup other := by
  unfold lookup erase
  rw [List.find?_filter]
  split
  · rename_i hmem
    rw [List.find?_eq_none.mpr (by grind)]
    rfl
  · congr 2
    funext entry
    grind

theorem mem_write {disk : Disk} {path other : Path} {node node' : Node} :
    (other, node') ∈ disk.write path node ↔
      other = path ∧ node' = node ∨ other ≠ path ∧ (other, node') ∈ disk := by
  unfold write
  rw [List.mem_cons, List.mem_filter]
  simp [and_comm]

theorem mem_filesInside {disk : Disk} {directory file : Path} :
    file ∈ disk.filesInside directory ↔
      ∃ node, (file, node) ∈ disk ∧ directory <+: file ∧ node.isRegularFile = true := by
  unfold filesInside inside
  constructor
  · intro h
    obtain ⟨⟨_, node⟩, hmem, rfl⟩ := List.mem_map.mp h
    obtain ⟨hinside, hregular⟩ := List.mem_filter.mp hmem
    obtain ⟨hentry, hbegins⟩ := List.mem_filter.mp hinside
    exact ⟨node, hentry, of_decide_eq_true hbegins, hregular⟩
  · rintro ⟨node, hentry, hbegins, hregular⟩
    exact List.mem_map.mpr ⟨(file, node),
      List.mem_filter.mpr ⟨List.mem_filter.mpr ⟨hentry, decide_eq_true hbegins⟩, hregular⟩, rfl⟩

theorem prefix_of_mem_filesInside {disk : Disk} {directory file : Path}
    (h : file ∈ disk.filesInside directory) : directory <+: file := by
  obtain ⟨_, _, hbegins, _⟩ := mem_filesInside.mp h
  exact hbegins

theorem filesInside_erase (disk : Disk) (paths : List Path) (directory : Path) :
    (disk.erase paths).filesInside directory =
      (disk.filesInside directory).filter fun path => path ∉ paths := by
  simp only [filesInside, inside, erase, List.filter_map, List.filter_filter]
  congr 1
  refine List.filter_congr fun entry _ => ?_
  simp only [Function.comp_apply]
  rw [Bool.and_comm (decide (entry.1 ∉ paths)), Bool.and_assoc]

theorem lookup_ne_none {disk : Disk} {path : Path} {node : Node} (h : (path, node) ∈ disk) :
    disk.lookup path ≠ none := by
  unfold lookup
  rw [ne_eq, Option.map_eq_none_iff, List.find?_eq_none]
  exact fun hnone => hnone _ h (decide_eq_true rfl)

theorem exists_lookup {disk : Disk} {directory file : Path}
    (h : file ∈ disk.filesInside directory) :
    ∃ node, disk.lookup file = some node := by
  obtain ⟨_, hmem, _⟩ := mem_filesInside.mp h
  exact Option.ne_none_iff_exists'.mp (lookup_ne_none hmem)

/-- New directories leave everything else as it is. -/
theorem foldl_directory {path : Path} : ∀ {created : List Path} {disk : Disk}, path ∉ created →
    (created.foldl (fun disk directory => disk.write directory .directory) disk).lookup path =
        disk.lookup path ∧
      ∀ node, (path, node) ∈ disk →
        (path, node) ∈ created.foldl
          (fun disk directory => disk.write directory .directory) disk := by
  intro created
  induction created with
  | nil => exact fun _ => ⟨rfl, fun _ h => h⟩
  | cons directory created ih =>
      intro disk hpath
      obtain ⟨hne, hlater⟩ := List.ne_and_not_mem_of_not_mem_cons hpath
      obtain ⟨hlookup, hmem⟩ := @ih (disk.write directory .directory) hlater
      refine ⟨?_, fun node h => hmem node (mem_write.mpr (Or.inr ⟨hne, h⟩))⟩
      rw [List.foldl_cons, hlookup, lookup_write, if_neg hne]

/-- What a path is after several writes: what it was, or what one of them made it. -/
theorem lookup_foldl_write (writes : List (Path × Node)) (path : Path) :
    ∀ disk : Disk, (writes.foldl (fun disk entry => disk.write entry.1 entry.2) disk).lookup path =
        disk.lookup path ∨
      ∃ entry ∈ writes, entry.1 = path ∧
        (writes.foldl (fun disk entry => disk.write entry.1 entry.2) disk).lookup path =
          some entry.2 := by
  induction writes with
  | nil => exact fun disk => Or.inl rfl
  | cons entry writes ih =>
      intro disk
      rcases ih (disk.write entry.1 entry.2) with hkept | ⟨later, hlater, hpath, hlookup⟩
      · rw [List.foldl_cons, hkept, lookup_write]
        split
        · rename_i hpath
          exact Or.inr ⟨entry, List.mem_cons_self, hpath.symm, rfl⟩
        · exact Or.inl rfl
      · exact Or.inr ⟨later, List.mem_cons_of_mem _ hlater, hpath, hlookup⟩

end Disk

end RulesElide
