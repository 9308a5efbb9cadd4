import RulesElide.KotlinBuilder.Commands
import RulesElide.KotlinBuilder.ElideCompile
import RulesElide.Library.FileTree
import RulesElide.Platform.Files

/-!
# The machine of the builder

`java.io.File` on a file system with symbolic links, as far as `extractSourceJars` and
`Main.handle` use it.  `Contained` says that nothing outside of a directory was changed; it is
what every operation on a path below the directory keeps.
-/

namespace RulesElide.KotlinBuilder

open Effects FileTree

/-! ## State -/

/-- `Deps.Dependency.Kind`. -/
inductive Kind
  | explicit
  | implicit
  | unused
  | incomplete
  deriving DecidableEq

/-- `Deps.Dependency`. -/
structure Dependency where
  path : String
  kind : Kind
  deriving DecidableEq

/-- `Deps.Dependencies`. -/
structure Dependencies where
  ruleLabel : String
  success : Bool
  dependency : List Dependency
  deriving DecidableEq

/-- The files, and three records of what the builder did. -/
structure Machine where
  files : Files Bytes
  /-- The files and directories that were created or written. -/
  touched : List Path := []
  /-- The commands that were started. -/
  started : List Started := []
  /-- The messages that were written as a `.jdeps` file. -/
  reports : List (String × Dependencies) := []

/-- Code that works on the files. -/
abbrev Program := ExceptT Throwable (StateM Machine)

/-- Puts something at a path. -/
def Machine.put (machine : Machine) (path : Path) (node : Entry Bytes)
    (h : machine.files.Free path) : Machine :=
  { machine with files := machine.files.put path node h, touched := machine.touched ++ [path] }

/-! ## `java.io.File` -/

/-- The number of symbolic links that are followed for one path. -/
def maxLinks : ℕ := 40

/-- `realpath`: the path with all symbolic links followed. -/
def realpath (files : Files Bytes) (path : Path) : Except Failure Path :=
  files.walk false maxLinks [] path

/-- One name for `collapse`; a `..` in front of all names stays. -/
def collapseStep (path : Path) (name : String) : Path :=
  if name = "." then path
  else if name = ".." then (if path = [] then [".."] else path.dropLast)
  else path ++ [name]

/-- Takes out the names `.` and `..`. -/
def collapse (names : List String) : Path :=
  names.foldl collapseStep []

/-- `canonicalize` without the whole path: the longest part at the front that exists, at most
`length` names long. -/
def canonicalizeFrom (files : Files Bytes) (path : Path) : ℕ → Except Throwable Path
  | 0 => .ok (collapse path)
  | length + 1 =>
      match realpath files (path.take (length + 1)) with
      | .ok real => .ok (collapse (real ++ path.drop (length + 1)))
      | .error .loop => .error (.ioException "Too many levels of symbolic links")
      | .error _ => canonicalizeFrom files path length

/-- `canonicalFile`: the part of the path that exists is resolved, and the rest is read off. -/
def canonicalize (files : Files Bytes) (path : Path) : Except Throwable Path :=
  match realpath files path with
  | .ok real => .ok (collapse real)
  | .error _ => canonicalizeFrom files path (path.length - 1)

/-- `mkdir`, if nothing has the path and the process may create it. -/
def mkdir (denied : Path → Bool) (machine : Machine) (path : Path) : Machine :=
  match path.getLast?, realpath machine.files path.dropLast with
  | some name, .ok directory =>
      if h : machine.files.Free (directory ++ [name]) then
        if (machine.files.node (directory ++ [name])).isSome ∨
          denied (directory ++ [name]) then machine
        else machine.put (directory ++ [name]) .directory h
      else machine
  | _, _ => machine

/-- `mkdirs`, whose result is not looked at: from the root down, as far as it goes. -/
def mkdirs (denied : Path → Bool) (path : Path) : Program Unit :=
  modify fun machine => path.inits.foldl (mkdir denied) machine

/-- `outputStream()` and the bytes that are written to it. -/
def writeFile (denied : Path → Bool) (path : Path) (bytes : Bytes) : Program Unit := do
  let machine ← get
  match machine.files.walk true maxLinks [] path with
  | .error _ => throw (.ioException (path.toString ++ " (No such file or directory)"))
  | .ok real =>
      if h : machine.files.Free real then
        if denied real then throw (.ioException (path.toString ++ " (Permission denied)"))
        else set (machine.put real (.file bytes) h)
      else throw (.ioException (path.toString ++ " (Is a directory)"))

/-! ## Canonical paths -/

/-- Only the first name may be `..`. -/
def Collapsed (path : Path) : Prop :=
  (∀ name ∈ path, name ≠ ".") ∧ ∀ name ∈ path.tail, name ≠ ".."

theorem Collapsed.step {path : Path} (h : Collapsed path) (name : String) :
    Collapsed (collapseStep path name) := by
  obtain ⟨hdot, hdots⟩ := h
  unfold collapseStep
  split
  · exact ⟨hdot, hdots⟩
  · rename_i hname
    split
    · split
      · exact ⟨by simp, nofun⟩
      · refine ⟨fun other hother => hdot other (List.mem_of_mem_dropLast hother),
          fun other hother => hdots other ?_⟩
        rw [List.tail_dropLast] at hother
        exact List.mem_of_mem_dropLast hother
    · rename_i hname'
      refine ⟨fun other hother => ?_, fun other hother => ?_⟩
      · rcases List.mem_append.mp hother with hold | hnew
        · exact hdot other hold
        · rw [List.mem_singleton.mp hnew]
          exact hname
      · cases path with
        | nil => exact absurd hother List.not_mem_nil
        | cons first path =>
            rw [List.cons_append, List.tail_cons] at hother
            rcases List.mem_append.mp hother with hold | hnew
            · exact hdots other hold
            · rw [List.mem_singleton.mp hnew]
              exact hname'

theorem collapsed_collapse (names : List String) : Collapsed (collapse names) :=
  List.foldlRecOn names collapseStep ⟨nofun, nofun⟩ fun _ h name _ => h.step name

/-- The part at the front is followed, and the rest is read off. -/
theorem canonicalize_spec {files : Files Bytes} {path final : Path}
    (h : canonicalize files path = .ok final) :
    ∃ front rest real, path = front ++ rest ∧ files.Leads false [] front real ∧
      final = collapse (real ++ rest) := by
  -- the longest part of the path that exists is walked, the rest only collapsed
  have hfrom : ∀ length, canonicalizeFrom files path length = .ok final →
      ∃ front rest real, path = front ++ rest ∧ files.Leads false [] front real ∧
        final = collapse (real ++ rest) := by
    intro length
    induction length with
    | zero =>
        intro h
        cases h
        exact ⟨[], path, [], rfl, .refl, rfl⟩
    | succ length ih =>
        intro h
        rw [canonicalizeFrom] at h
        split at h
        · rename_i real hreal
          cases h
          exact ⟨_, _, real, (List.take_append_drop _ path).symm, Files.leads_of_walk hreal, rfl⟩
        · cases h
        · exact ih h
  unfold canonicalize at h
  split at h
  · rename_i real hreal
    cases h
    exact ⟨path, [], real, (List.append_nil path).symm, Files.leads_of_walk hreal,
      by rw [List.append_nil]⟩
  · exact hfrom _ h

theorem collapsed_of_canonicalize {files : Files Bytes} {path final : Path}
    (h : canonicalize files path = .ok final) : Collapsed final := by
  obtain ⟨_, _, _, _, _, rfl⟩ := canonicalize_spec h
  exact collapsed_collapse _

theorem mem_collapse {names : List String} {name : String} (h : name ∈ collapse names) :
    name ∈ names ∨ name = ".." := by
  revert h
  refine List.foldlRecOn names collapseStep (motive := fun path => name ∈ path → _) nofun ?_
  intro path ih next hnext h
  unfold collapseStep at h
  split at h
  · exact ih h
  · split at h
    · split at h
      · exact Or.inr (List.mem_singleton.mp h)
      · exact ih (List.mem_of_mem_dropLast h)
    · rcases List.mem_append.mp h with hold | hnew
      · exact ih hold
      · exact Or.inl (List.mem_singleton.mp hnew ▸ hnext)

theorem collapse_of_proper {names : List String} (h : ∀ name ∈ names, Proper name) :
    collapse names = names := by
  have hfold : ∀ (names : List String) (path : Path), (∀ name ∈ names, Proper name) →
      names.foldl collapseStep path = path ++ names := by
    intro names
    induction names with
    | nil => exact fun path _ => (List.append_nil path).symm
    | cons name names ih =>
        intro path h
        obtain ⟨hdot, hdots, _⟩ := h name List.mem_cons_self
        rw [List.foldl_cons, collapseStep, if_neg hdot, if_neg hdots,
          ih _ fun other hother => h other (List.mem_cons_of_mem _ hother), List.append_assoc]
        rfl
  exact hfold names [] h

theorem isName_of_canonicalize {files : Files Bytes} {path final : Path}
    (hpath : ∀ name ∈ path, Path.IsName name) (h : canonicalize files path = .ok final) :
    ∀ name ∈ final, Path.IsName name := by
  obtain ⟨front, rest, real, rfl, hleads, rfl⟩ := canonicalize_spec h
  intro name hname
  rcases mem_collapse hname with hmem | rfl
  · rcases List.mem_append.mp hmem with hreal | hrest
    · exact (files.proper_of_mem (hleads.exists files.root) hreal).2.2
    · exact hpath name (List.mem_append_right _ hrest)
  · exact ⟨by decide, by decide⟩

/-- `normalize` drops a `..` in front of all names, which `collapse` keeps. -/
theorem collapseStep_lexicalStep {path path' : Path} (h : path = path' ∨ path = ".." :: path')
    (name : String) :
    collapseStep path name = Files.lexicalStep path' name ∨
      collapseStep path name = ".." :: Files.lexicalStep path' name := by
  unfold collapseStep Files.lexicalStep
  split
  · exact h
  · split
    · rcases h with rfl | rfl
      · split
        · rename_i hempty
          exact Or.inr (by rw [hempty]; rfl)
        · exact Or.inl rfl
      · rw [if_neg (List.cons_ne_nil _ _)]
        cases path' with
        | nil => exact Or.inl rfl
        | cons first path' => exact Or.inr rfl
    · exact h.imp (congrArg (· ++ [name])) (congrArg (· ++ [name]))

/-- Without symbolic links, a canonical path is read off. -/
theorem normalize_of_canonicalize {files : Files Bytes} {path final : Path}
    (hlinks : files.NoLinks []) (h : canonicalize files path = .ok final)
    (hdots : final.head? ≠ some "..") : final = Path.normalize path := by
  obtain ⟨front, rest, real, rfl, hleads, rfl⟩ := canonicalize_spec h
  -- the collapsed path is the lexical one, or climbs above the root
  have hfold : ∀ (names : List String) (path path' : Path), path = path' ∨ path = ".." :: path' →
      names.foldl collapseStep path = names.foldl Files.lexicalStep path' ∨
        names.foldl collapseStep path = ".." :: names.foldl Files.lexicalStep path' := by
    intro names
    induction names with
    | nil => exact fun _ _ h => h
    | cons name names ih => exact fun path path' h => ih _ _ (collapseStep_lexicalStep h name)
  have hcollapse : collapse (real ++ rest) = rest.foldl collapseStep real := by
    rw [collapse, List.foldl_append, ← collapse, collapse_of_proper]
    exact fun name => files.proper_of_mem (hleads.exists files.root)
  have hlexical : rest.foldl Files.lexicalStep real = Path.normalize (front ++ rest) := by
    rw [hleads.eq_lexical hlinks, ← List.foldl_append]
    rfl
  rw [hcollapse] at hdots ⊢
  rcases hfold rest real real (Or.inl rfl) with hsame | hclimbs
  · exact hsame.trans hlexical
  · rw [hclimbs] at hdots
    exact absurd rfl hdots

theorem Collapsed.of_prefix {path final : Path} (h : Collapsed final) (hbegins : path <+: final) :
    Collapsed path := by
  refine ⟨fun name hname => h.1 name (hbegins.subset hname), fun name hname => h.2 name ?_⟩
  obtain ⟨rest, rfl⟩ := hbegins
  cases path with
  | nil => exact absurd hname List.not_mem_nil
  | cons first path => exact List.mem_append_left _ hname

/-! ## Below a directory -/

def StrictlyInside (directory path : Path) : Prop :=
  directory <+: path ∧ path ≠ directory

/-- A directory without links. -/
structure Plain (files : Files Bytes) (directory : Path) : Prop where
  node : files.node directory = some .directory
  noLinks : files.NoLinks directory

/-- Since `start`, nothing was changed but below the directory, and no link was made. -/
structure Contained (directory : Path) (start machine : Machine) : Prop where
  touched : ∀ path ∈ machine.touched, path ∈ start.touched ∨ StrictlyInside directory path
  unchanged : ∀ path, ¬ StrictlyInside directory path →
    machine.files.node path = start.files.node path
  noLinks : ∀ other, start.files.NoLinks other → machine.files.NoLinks other

variable {denied : Path → Bool} {directory path dest real : Path} {start machine : Machine}

theorem Contained.refl (directory : Path) (machine : Machine) :
    Contained directory machine machine :=
  ⟨fun _ h => Or.inl h, fun _ _ => rfl, fun _ h => h⟩

theorem Contained.put {node : Entry Bytes} (h : Contained directory start machine)
    (hfree : machine.files.Free path) (hinside : StrictlyInside directory path)
    (hnode : ∀ isAbsolute target, node ≠ .link isAbsolute target) :
    Contained directory start (machine.put path node hfree) where
  touched other hother := by
    rcases List.mem_append.mp hother with hold | hnew
    · exact h.touched other hold
    · exact Or.inr (List.mem_singleton.mp hnew ▸ hinside)
  unchanged other hother := by
    have hne : other ≠ path := fun heq => hother (heq ▸ hinside)
    rw [Machine.put, Files.node_put, Function.update_of_ne hne, h.unchanged other hother]
  noLinks other hlinks := (h.noLinks other hlinks).put hfree hnode

theorem Plain.of_contained (h : Plain start.files directory)
    (hcontained : Contained directory start machine) : Plain machine.files directory where
  node := by
    rw [hcontained.unchanged directory fun hinside => hinside.2 rfl, h.node]
  noLinks := hcontained.noLinks directory h.noLinks

/-- A canonical path below a directory without links leads below it, and to no other path unless
the directory is the root. -/
theorem Plain.of_walk {files : Files Bytes} (h : Plain files directory) (hpath : directory <+: path)
    (hcollapsed : Collapsed path) {create : Bool} {links : ℕ}
    (hwalk : files.walk create links [] path = .ok real) :
    directory <+: real ∧ (directory ≠ [] → real = path) := by
  obtain ⟨rest, rfl⟩ := hpath
  cases directory with
  | nil => exact ⟨List.nil_prefix, fun hne => absurd rfl hne⟩
  | cons first directory =>
      rw [files.walk_directory create links rest (by rw [List.nil_append, h.node]),
        List.nil_append] at hwalk
      have hreal : real = first :: directory ++ rest := by
        refine (Files.leads_of_walk hwalk).eq_append h.noLinks List.prefix_rfl fun name hname => ?_
        exact ⟨hcollapsed.1 name (List.mem_append_right _ hname),
          hcollapsed.2 name (List.mem_append_right _ hname)⟩
      exact ⟨hreal ▸ List.prefix_append _ _, fun _ => hreal⟩

theorem realpath_of_directory {files : Files Bytes} (h : files.node path = some .directory) :
    realpath files path = .ok path := by
  have hwalk := files.walk_directory false maxLinks [] (by rw [List.nil_append, h])
  rw [List.append_nil, List.nil_append] at hwalk
  rw [realpath, hwalk]
  rfl

/-- Either nothing changes, or a new directory is put where nothing was. -/
theorem mkdir_cases (denied : Path → Bool) (machine : Machine) (path : Path) :
    mkdir denied machine path = machine ∨
      ∃ above name, path = path.dropLast ++ [name] ∧
        realpath machine.files path.dropLast = .ok above ∧
        machine.files.node (above ++ [name]) = none ∧
        ∃ hfree, mkdir denied machine path = machine.put (above ++ [name]) .directory hfree := by
  unfold mkdir
  split
  · rename_i name above hlast habove
    split
    · rename_i hfree
      split
      · exact Or.inl rfl
      · rename_i hnew
        rw [not_or, Bool.not_eq_true, Option.isSome_eq_false_iff, Option.isNone_iff_eq_none] at hnew
        exact Or.inr ⟨above, name, (List.dropLast_append_getLast? name hlast).symm, habove, hnew.1,
          hfree, rfl⟩
    · exact Or.inl rfl
  · exact Or.inl rfl

/-- What is above a directory, or the directory itself, is a directory. -/
theorem node_of_above {files : Files Bytes} {front : Path}
    (h : files.node directory = some .directory) (hfront : front <+: directory) :
    files.node front = some .directory := by
  obtain ⟨rest, rfl⟩ := hfront
  rcases eq_or_ne rest [] with rfl | hrest
  · rwa [List.append_nil] at h
  · exact files.directory_of_append hrest (h ▸ Option.some_ne_none _)

theorem mkdir_contained (h : Plain start.files directory)
    (hcontained : Contained directory start machine) (hdest : directory <+: dest)
    (hcollapsed : Collapsed dest) (hpath : path <+: dest) :
    Contained directory start (mkdir denied machine path) := by
  rcases mkdir_cases denied machine path with hsame
    | ⟨above, name, hsplit, habove, hnew, hfree, hmkdir⟩
  · rwa [hsame]
  · have hplain := h.of_contained hcontained
    have hparent : path.dropLast <+: path := List.dropLast_prefix path
    rw [hmkdir]
    refine hcontained.put hfree ?_ nofun
    by_cases hbelow : directory <+: path.dropLast
    · obtain ⟨hinside, _⟩ :=
        hplain.of_walk hbelow (hcollapsed.of_prefix (hparent.trans hpath)) habove
      refine ⟨hinside.trans (List.prefix_append _ _), fun heq => ?_⟩
      have hlength := hinside.length_le
      rw [← heq, List.length_append, List.length_singleton] at hlength
      omega
    · -- otherwise the path is above the directory, and exists
      have hbegins : path.dropLast ++ [name] <+: directory := by
        rw [← hsplit]
        rcases List.prefix_or_prefix_of_prefix hdest hpath with hinside | habove'
        · rw [hsplit] at hinside ⊢
          rcases List.prefix_concat_iff.mp hinside with heq | hinside
          · rw [heq]
          · exact absurd hinside hbelow
        · exact habove'
      have hdirectory := node_of_above hplain.node ((List.prefix_append _ _).trans hbegins)
      obtain rfl : path.dropLast = above :=
        Except.ok.inj ((realpath_of_directory hdirectory).symm.trans habove)
      rw [node_of_above hplain.node hbegins] at hnew
      cases hnew

/-- What every `mkdir` keeps. -/
theorem mkdirs_invariant {motive : Machine → Prop} {path : Path}
    (hstep : ∀ front, front <+: path → ∀ machine, motive machine →
      motive (mkdir denied machine front))
    (h : motive machine) : motive (run (mkdirs denied path) machine).2 :=
  List.foldlRecOn path.inits (mkdir denied) h fun machine hmachine front hfront =>
    hstep front ((List.mem_inits front path).mp hfront) machine hmachine

/-- `mkdirs` for the directory of a path. -/
theorem mkdirs_contained (h : Plain start.files directory) (hdest : directory <+: dest)
    (hcollapsed : Collapsed dest) :
    Triple (Contained directory start) (mkdirs denied dest.dropLast)
      (fun _ => Contained directory start) (fun _ => Contained directory start) := by
  refine Triple.modify fun machine hcontained => ?_
  refine mkdirs_invariant (fun front hfront machine hmachine => ?_) hcontained
  exact mkdir_contained h hmachine hdest hcollapsed (hfront.trans (List.dropLast_prefix dest))

/-- What exists is kept. -/
theorem mkdirs_keeps {path other : Path} (hother : machine.files.node other ≠ none) :
    (run (mkdirs denied path) machine).2.files.node other = machine.files.node other := by
  refine mkdirs_invariant (motive := fun after => after.files.node other = machine.files.node other)
    (fun front _ after hafter => ?_) rfl
  rcases mkdir_cases denied after front with hsame | ⟨above, name, _, _, hnew, hfree, hmkdir⟩
  · rwa [hsame]
  · have hne : other ≠ above ++ [name] := fun heq => hother (hafter ▸ heq ▸ hnew)
    rw [hmkdir, Machine.put, Files.node_put, Function.update_of_ne hne, hafter]

/-- Writing a file: nothing happens, or it is put where the path leads. -/
theorem run_writeFile (denied : Path → Bool) (path : Path) (bytes : Bytes) (machine : Machine) :
    (∃ failure, run (writeFile denied path bytes) machine = (.error failure, machine)) ∨
      ∃ real hfree, machine.files.walk true maxLinks [] path = .ok real ∧
        run (writeFile denied path bytes) machine =
          (.ok (), machine.put real (.file bytes) hfree) := by
  unfold writeFile
  rw [run_bind_of_ok (run_get machine)]
  split
  · exact Or.inl ⟨_, rfl⟩
  · rename_i real hwalk
    split
    · rename_i hfree
      split
      · exact Or.inl ⟨_, rfl⟩
      · exact Or.inr ⟨real, hfree, hwalk, rfl⟩
    · exact Or.inl ⟨_, rfl⟩

theorem writeFile_contained (h : Plain start.files directory) (hdest : directory <+: dest)
    (hcollapsed : Collapsed dest) (bytes : Bytes) :
    Triple (Contained directory start) (writeFile denied dest bytes)
      (fun _ => Contained directory start) (fun _ => Contained directory start) := by
  refine Triple.of_final fun machine hcontained => ?_
  rcases run_writeFile denied dest bytes machine with ⟨_, hrun⟩ | ⟨real, hfree, hwalk, hrun⟩
  · rwa [hrun]
  · rw [hrun]
    have hplain := h.of_contained hcontained
    refine hcontained.put hfree ⟨(hplain.of_walk hdest hcollapsed hwalk).1, ?_⟩ nofun
    -- the directory itself cannot be written
    rintro rfl
    exact absurd (Files.isDirectory_iff.mpr hplain.node) (by rw [hfree.free]; decide)

/-- After `mkdirs` and the write, the file is at its path, and the other files are as before. -/
theorem node_of_written {bytes : Bytes} {middle after : Machine} (h : Plain machine.files directory)
    (hdest : directory <+: dest) (hcollapsed : Collapsed dest) (hroot : directory ≠ [])
    (hmkdirs : run (mkdirs denied dest.dropLast) machine = (.ok (), middle))
    (hwrite : run (writeFile denied dest bytes) middle = (.ok (), after)) :
    after.files.node dest = some (.file bytes) ∧
      ∀ other content, other ≠ dest → machine.files.node other = some (.file content) →
        after.files.node other = some (.file content) := by
  have hmiddle : Plain middle.files directory :=
    h.of_contained
      ((mkdirs_contained h hdest hcollapsed).ok (Contained.refl directory machine) hmkdirs)
  rcases run_writeFile denied dest bytes middle with ⟨_, hrun⟩ | ⟨real, hfree, hwalk, hrun⟩
  · cases hwrite.symm.trans hrun
  · obtain rfl := (Prod.mk.inj (hwrite.symm.trans hrun)).2
    have hreal := (hmiddle.of_walk hdest hcollapsed hwalk).2 hroot
    rw [Machine.put, Files.node_put, hreal]
    refine ⟨Function.update_self .., fun other content hother hfile => ?_⟩
    have hkept := @mkdirs_keeps denied machine dest.dropLast other (hfile ▸ Option.some_ne_none _)
    rw [hmkdirs] at hkept
    rw [Function.update_of_ne hother, hkept, hfile]

end RulesElide.KotlinBuilder
