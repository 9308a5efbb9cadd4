import RulesElide.Library.Reader
import RulesElide.Platform.Files

/-!
# Archives

`_jar_impl` of `jvm_tools.bzl` turns files into operands `-C root entry` of the jar tool, which
stores the file `entry` of the directory `root` under that name.  The root is what is left of
the exec path once the entry is cut off its end.  `jarImpl_addresses` says that every operand
names its file.
-/

namespace RulesElide.JvmTools

/-! ## Files -/

/-- A name in a normalized path. -/
def IsSegment (name : String) : Prop :=
  Path.IsName name ∧ name ≠ "."

instance : DecidablePred IsSegment := fun name =>
  inferInstanceAs (Decidable ((name ≠ "" ∧ '/' ∉ name.toList) ∧ name ≠ "."))

/-- `File`, by what Bazel makes its two paths of: a file of the main repository or of another
one, in the source tree or below an output root. -/
structure File where
  root : List String
  repository : Option String
  names : List String
  isDirectory : Bool := false
  nonempty : names ≠ []
  root_segments : ∀ name ∈ root, IsSegment name
  repository_segment : ∀ name ∈ repository, IsSegment name
  names_segments : ∀ name ∈ names, IsSegment name

def joinNames (names : List String) : String :=
  "/".intercalate names

namespace File

/-- The names of the exec path. -/
def pathNames (file : File) : List String :=
  match file.repository with
  | none => file.root ++ file.names
  | some repository => file.root ++ "external" :: repository :: file.names

/-- The names of the path below the directory of the main repository. -/
def shortNames (file : File) : List String :=
  match file.repository with
  | none => file.names
  | some repository => ".." :: repository :: file.names

/-- `file.path`. -/
def path (file : File) : String :=
  joinNames file.pathNames

/-- `file.short_path`. -/
def shortPath (file : File) : String :=
  joinNames file.shortNames

end File

/-- `ctx` of `elide_jar`. -/
structure Context where
  name : String
  /-- The directory that declared outputs are in. -/
  outputDirectory : String
  srcs : List File
  manifest : Option File := none
  mainClass : String := ""
  stripPrefix : String := ""
  elideBinary : String := "elide"
  compileToolFiles : List String := []

/-- The action that `_run` registers, with files as paths. -/
structure Action where
  executable : String
  arguments : List String
  inputs : List String
  outputs : List String
  mnemonic : String
  env : List (String × String)

/-! ## The code -/

/-- `value.rstrip("/")`. -/
def rstrip (value : String) : String :=
  String.ofList (value.toList.rdropWhile (· = '/'))

/-- `value[:-len(text)]`; as `-0` is `0`, nothing is left when the text is empty. -/
def cutEnd (value text : String) : String :=
  if text = "" then "" else String.ofList (value.toList.take (value.length - text.length))

/-- What follows `-C`. -/
structure Operand where
  root : String
  entry : String

def Operand.args (operand : Operand) : List String :=
  ["-C", operand.root, operand.entry]

/-- The short path of a file without the prefix, which has no slashes at its end. -/
def stripped (strip : String) (file : File) : Except String String :=
  if strip = "" then .ok file.shortPath
  else if startsWith file.shortPath (strip ++ "/") then
    .ok (removePrefix file.shortPath (strip ++ "/"))
  else .error (file.shortPath ++ " is not under strip_prefix " ++ strip)

/-- `entry` in the loop of `_jar_impl`. -/
def entryOf (strip : String) (file : File) : Except String String := do
  let entry ← stripped strip file
  if startsWith entry "../" then
    .error ("External files require strip_prefix or a directory artifact: " ++ file.shortPath)
  else .ok entry

/-- `root` in the loop of `_jar_impl`. -/
def rootOf (file : File) (entry : String) : String :=
  let root := rstrip (cutEnd file.path entry)
  if root = "" then "." else root

/-- The arguments so far, and the keys of `seen`. -/
structure Archive where
  args : List String
  seen : List String := []

/-- The body of the loop over the files. -/
def addFile (strip : String) (archive : Archive) (file : File) : Except String Archive :=
  if file.isDirectory then
    .ok { archive with args := archive.args ++ Operand.args ⟨file.path, "."⟩ }
  else do
    let entry ← entryOf strip file
    if entry ∈ archive.seen then .error ("Duplicate jar entry: " ++ entry)
    else
      .ok ⟨archive.args ++ Operand.args ⟨rootOf file entry, entry⟩, archive.seen ++ [entry]⟩

/-- The order of `_file_path`. -/
def pathLe (first second : File) : Prop :=
  first.path ≤ second.path

instance : DecidableRel pathLe := fun first second =>
  inferInstanceAs (Decidable (first.path ≤ second.path))

instance : Std.Total pathLe := ⟨fun first second => le_total first.path second.path⟩

instance : IsTrans File pathLe := ⟨fun _ _ _ h h' => le_trans h h'⟩

/-- `sorted(files, key = _file_path)`. -/
def sorted (files : List File) : List File :=
  files.insertionSort pathLe

/-- `_DATE`. -/
def date : String := "1980-01-01T00:00:02Z"

/-- `_args`. -/
def args (command : String) : List String :=
  ["--no-env", "--no-properties", command]

namespace Context

/-- `output`. -/
def output (ctx : Context) : String :=
  ctx.outputDirectory ++ "/" ++ ctx.name ++ ".jar"

/-- The arguments in front of the operands. -/
def options (ctx : Context) : List String :=
  args "jar" ++ ["--", "--create", "--date=" ++ date, "--file", ctx.output] ++
    (match ctx.manifest with
      | some manifest => ["--manifest", manifest.path]
      | none => []) ++
    (if ctx.mainClass = "" then [] else ["--main-class", ctx.mainClass])

/-- `_run`. -/
def run (ctx : Context) (mnemonic : String) (arguments inputs outputs : List String) : Action where
  executable := ctx.elideBinary
  arguments
  inputs := inputs ++ ctx.compileToolFiles
  outputs
  mnemonic
  env := [("ELIDE_BAZEL", "1"), ("SOURCE_DATE_EPOCH", "315532800")]

end Context

/-- `_jar_impl`. -/
def jarImpl (ctx : Context) : Except String Action := do
  let archive ← (sorted ctx.srcs).foldlM (addFile (rstrip ctx.stripPrefix)) ⟨ctx.options, []⟩
  let inputs := ctx.srcs.map File.path ++ (ctx.manifest.map File.path).toList
  .ok (ctx.run "ElideJar" archive.args inputs [ctx.output])

/-! ## Names joined by slashes -/

variable {names : List String}

theorem joinNames_cons {name : String} (h : names ≠ []) :
    joinNames (name :: names) = name ++ "/" ++ joinNames names := by
  obtain ⟨next, names, rfl⟩ := List.exists_cons_of_ne_nil h
  exact String.intercalate_cons_cons

theorem joinNames_append {first second : List String} (hfirst : first ≠ [])
    (hsecond : second ≠ []) :
    joinNames (first ++ second) = joinNames first ++ "/" ++ joinNames second := by
  induction first with
  | nil => exact absurd rfl hfirst
  | cons name first ih =>
      rw [List.cons_append, joinNames_cons (List.append_ne_nil_of_right_ne_nil _ hsecond)]
      by_cases hnil : first = []
      · subst hnil
        rw [List.nil_append, joinNames, joinNames, String.intercalate_singleton]
      · rw [ih hnil, joinNames_cons hnil]
        simp only [String.append_assoc]

theorem IsSegment.ne_empty {name : String} (h : IsSegment name) : name ≠ "" :=
  h.1.1

theorem IsSegment.slash_notMem {name : String} (h : IsSegment name) : '/' ∉ name.toList :=
  h.1.2

/-- Where a text of joined names has a slash, the names fall into two parts. -/
theorem split_joinNames {text rest : String} (hsegments : ∀ name ∈ names, IsSegment name)
    (h : joinNames names = text ++ "/" ++ rest) :
    ∃ front back, names = front ++ back ∧ front ≠ [] ∧ back ≠ [] ∧
      text = joinNames front ∧ rest = joinNames back := by
  have hne : names ≠ [] := by
    rintro rfl
    simp [joinNames] at h
  have hnames : parts '/' (joinNames names) = names :=
    parts_intercalate (fun name hname => (hsegments name hname).slash_notMem) hne
  -- the parts of the whole are those of the two texts, and each text is the join of its parts
  have hsplit : names = parts '/' text ++ parts '/' rest := by
    rw [← parts_append, ← hnames, h]
    rfl
  exact ⟨parts '/' text, parts '/' rest, hsplit, parts_ne_nil _ _, parts_ne_nil _ _,
    (intercalate_parts '/' text).symm, (intercalate_parts '/' rest).symm⟩

/-- The last character is one of the last name. -/
theorem getLast?_joinNames (hne : names ≠ []) (hsegments : ∀ name ∈ names, IsSegment name) :
    ∃ character, (joinNames names).toList.getLast? = some character ∧ character ≠ '/' := by
  induction names with
  | nil => exact absurd rfl hne
  | cons name names ih =>
      by_cases hnil : names = []
      · subst hnil
        have hsegment := hsegments name List.mem_cons_self
        have hchars : name.toList ≠ [] := mt String.toList_eq_nil_iff.mp hsegment.ne_empty
        rw [joinNames, String.intercalate_singleton]
        refine ⟨_, List.getLast?_eq_some_getLast hchars, ?_⟩
        exact fun h => hsegment.slash_notMem (h ▸ List.getLast_mem hchars)
      · obtain ⟨character, hlast, hslash⟩ :=
          ih hnil fun other hother => hsegments other (List.mem_cons_of_mem _ hother)
        refine ⟨character, ?_, hslash⟩
        rw [joinNames_cons hnil, String.toList_append, List.getLast?_append, hlast, Option.some_or]

theorem joinNames_ne_empty (hne : names ≠ []) (hsegments : ∀ name ∈ names, IsSegment name) :
    joinNames names ≠ "" := by
  obtain ⟨character, hlast, -⟩ := getLast?_joinNames hne hsegments
  intro h
  simp [h] at hlast

theorem joinNames_ne_dot (hne : names ≠ []) (hsegments : ∀ name ∈ names, IsSegment name) :
    joinNames names ≠ "." := by
  obtain ⟨name, names, rfl⟩ := List.exists_cons_of_ne_nil hne
  by_cases hnil : names = []
  · subst hnil
    rw [joinNames, String.intercalate_singleton]
    exact (hsegments name List.mem_cons_self).2
  · intro h
    have hslash : '/' ∈ (joinNames (name :: names)).toList := by
      rw [joinNames_cons hnil]
      simp
    rw [h] at hslash
    exact absurd hslash (by decide)

theorem rstrip_joinNames (hne : names ≠ []) (hsegments : ∀ name ∈ names, IsSegment name) :
    rstrip (joinNames names ++ "/") = joinNames names := by
  obtain ⟨character, hlast, hslash⟩ := getLast?_joinNames hne hsegments
  obtain ⟨initial, hinitial⟩ := List.getLast?_eq_some_iff.mp hlast
  rw [rstrip, String.toList_append, show "/".toList = ['/'] from rfl,
    List.rdropWhile_concat_pos _ _ _ (by simp), hinitial,
    List.rdropWhile_concat_neg _ _ _ (by simpa using hslash), ← hinitial, String.ofList_toList]

theorem cutEnd_append (value text : String) (h : text ≠ "") :
    cutEnd (value ++ text) text = value := by
  apply String.toList_injective
  rw [cutEnd, if_neg h, String.toList_ofList, String.length_append, Nat.add_sub_cancel,
    String.toList_append, ← String.length_toList, List.take_left]

/-! ## One file -/

theorem File.pathNames_segments (file : File) : ∀ name ∈ file.pathNames, IsSegment name := by
  intro name hname
  unfold File.pathNames at hname
  split at hname
  · rcases List.mem_append.mp hname with hroot | hnames
    · exact file.root_segments name hroot
    · exact file.names_segments name hnames
  · rename_i repository hrepository
    simp only [List.mem_append, List.mem_cons] at hname
    rcases hname with hroot | rfl | rfl | hnames
    · exact file.root_segments name hroot
    · exact ⟨⟨by decide, by decide⟩, by decide⟩
    · exact file.repository_segment name (by rw [hrepository]; rfl)
    · exact file.names_segments name hnames

theorem File.shortNames_segments (file : File) : ∀ name ∈ file.shortNames, IsSegment name := by
  intro name hname
  unfold File.shortNames at hname
  split at hname
  · exact file.names_segments name hname
  · rename_i repository hrepository
    simp only [List.mem_cons] at hname
    rcases hname with rfl | rfl | hnames
    · exact ⟨⟨by decide, by decide⟩, by decide⟩
    · exact file.repository_segment name (by rw [hrepository]; rfl)
    · exact file.names_segments name hnames

/-- What is stripped off the short path is a part of the exec path, too, except that the names of
other repositories are below `external` there. -/
theorem File.exists_pathNames {file : File} {front back : List String} (hfront : front ≠ [])
    (h : file.shortNames = front ++ back) : ∃ front', file.pathNames = front' ++ back := by
  unfold File.shortNames at h
  unfold File.pathNames
  split at h
  · exact ⟨file.root ++ front, by rw [h, List.append_assoc]⟩
  · obtain ⟨first, front, rfl⟩ := List.exists_cons_of_ne_nil hfront
    obtain ⟨-, h⟩ := List.cons.inj h
    exact ⟨file.root ++ "external" :: front, by simp [h]⟩

/-- The entry of a file that is not rejected. -/
theorem entryOf_spec {strip entry : String} {file : File} (h : entryOf strip file = .ok entry) :
    file.shortPath = (if strip = "" then entry else strip ++ "/" ++ entry) ∧
      startsWith entry "../" = false := by
  unfold entryOf stripped at h
  obtain ⟨short, hstripped, h⟩ := Reader.bind_eq_ok.mp h
  split at h
  · cases h
  · rename_i houtside
    cases h
    refine ⟨?_, Bool.eq_false_of_not_eq_true houtside⟩
    by_cases hstrip : strip = ""
    · rw [if_pos hstrip] at hstripped ⊢
      exact Except.ok.inj hstripped
    · rw [if_neg hstrip] at hstripped ⊢
      split at hstripped
      · rename_i hbegins
        cases hstripped
        exact (append_removePrefix hbegins).symm
      · cases hstripped

/-- The exec path ends with the names of the entry. -/
theorem entryOf_names {strip entry : String} {file : File} (h : entryOf strip file = .ok entry) :
    ∃ front back, file.pathNames = front ++ back ∧ back ≠ [] ∧ entry = joinNames back := by
  obtain ⟨hshort, hinside⟩ := entryOf_spec h
  by_cases hstrip : strip = ""
  · rw [if_pos hstrip] at hshort
    unfold File.pathNames
    split
    · rename_i hmain
      refine ⟨file.root, file.names, rfl, file.nonempty, ?_⟩
      rw [← hshort, File.shortPath, File.shortNames, hmain]
    · rename_i repository hrepository
      -- the short path of a file of another repository begins with `../`
      rw [← hshort, File.shortPath, File.shortNames, hrepository,
        joinNames_cons (List.cons_ne_nil _ _), show ".." ++ "/" = "../" from rfl,
        startsWith_append] at hinside
      exact absurd hinside (by decide)
  · rw [if_neg hstrip] at hshort
    obtain ⟨front, back, hnames, hfront, hback, -, hentry⟩ :=
      split_joinNames file.shortNames_segments hshort
    obtain ⟨front', hpath⟩ := File.exists_pathNames hfront hnames
    exact ⟨front', back, hpath, hback, hentry⟩

/-- What the jar tool opens. -/
def Operand.joined (operand : Operand) : String :=
  if operand.root = "." then operand.entry else operand.root ++ "/" ++ operand.entry

theorem rootOf_append {file : File} {front back : List String} (h : file.pathNames = front ++ back)
    (hback : back ≠ []) :
    rootOf file (joinNames back) = if front = [] then "." else joinNames front := by
  have hsegments := file.pathNames_segments
  rw [h, List.forall_mem_append] at hsegments
  have hentry := joinNames_ne_empty hback hsegments.2
  unfold rootOf
  by_cases hfront : front = []
  · have hcut : cutEnd file.path (joinNames back) = "" := by
      rw [File.path, h, hfront]
      exact cutEnd_append "" (joinNames back) hentry
    rw [hcut, if_pos hfront]
    rfl
  · have hcut : cutEnd file.path (joinNames back) = joinNames front ++ "/" := by
      rw [File.path, h, joinNames_append hfront hback]
      exact cutEnd_append (joinNames front ++ "/") (joinNames back) hentry
    rw [hcut, rstrip_joinNames hfront hsegments.1, if_neg hfront,
      if_neg (joinNames_ne_empty hfront hsegments.1)]

theorem joined_rootOf {file : File} {front back : List String} (h : file.pathNames = front ++ back)
    (hback : back ≠ []) :
    Operand.joined ⟨rootOf file (joinNames back), joinNames back⟩ = file.path := by
  have hsegments := file.pathNames_segments
  rw [h, List.forall_mem_append] at hsegments
  unfold Operand.joined
  dsimp only
  rw [rootOf_append h hback, File.path, h]
  by_cases hfront : front = []
  · rw [if_pos hfront, if_pos rfl, hfront, List.nil_append]
  · rw [if_neg hfront, if_neg (joinNames_ne_dot hfront hsegments.1),
      joinNames_append hfront hback]

/-- An operand that names the file and stores it under what the prefix leaves of its short
path. -/
structure Addresses (strip : String) (file : File) (operand : Operand) : Prop where
  path : operand.joined = file.path
  shortPath : file.shortPath =
    if strip = "" then operand.entry else strip ++ "/" ++ operand.entry
  nonempty : operand.entry ≠ ""
  inside : startsWith operand.entry "../" = false

theorem entryOf_addresses {strip entry : String} {file : File}
    (h : entryOf strip file = .ok entry) : Addresses strip file ⟨rootOf file entry, entry⟩ := by
  obtain ⟨hshort, hinside⟩ := entryOf_spec h
  obtain ⟨front, back, hpath, hback, rfl⟩ := entryOf_names h
  have hsegments := file.pathNames_segments
  rw [hpath, List.forall_mem_append] at hsegments
  exact ⟨joined_rootOf hpath hback, hshort, joinNames_ne_empty hback hsegments.2, hinside⟩

/-! ## All files -/

/-- The operand of a file that is not rejected. -/
def operandOf (strip : String) (file : File) : Operand :=
  if file.isDirectory then ⟨file.path, "."⟩
  else
    let entry := (entryOf strip file).toOption.getD ""
    ⟨rootOf file entry, entry⟩

/-- The operands of the directories and of the files, and what `seen` gains. -/
structure Added (strip : String) (archive archive' : Archive) (files : List File) : Prop where
  args : archive'.args = archive.args ++ files.flatMap fun file => (operandOf strip file).args
  seen : archive'.seen = archive.seen ++
    (files.filter fun file => !file.isDirectory).map fun file => (operandOf strip file).entry
  addresses : ∀ file ∈ files, file.isDirectory = false →
    Addresses strip file (operandOf strip file)
  nodup : archive.seen.Nodup → archive'.seen.Nodup

variable {strip : String}

theorem addFile_added {archive archive' : Archive} {file : File}
    (h : addFile strip archive file = .ok archive') : Added strip archive archive' [file] := by
  unfold addFile at h
  -- a directory goes in as a whole, without a name of its own
  split at h
  · rename_i hdirectory
    cases h
    refine ⟨?_, ?_, ?_, id⟩
    · simp [operandOf, hdirectory]
    · simp [hdirectory]
    · simp [hdirectory]
  · rename_i hfile
    obtain ⟨entry, hentry, h⟩ := Reader.bind_eq_ok.mp h
    split at h
    · cases h
    · rename_i hnew
      cases h
      have hoperand : operandOf strip file = ⟨rootOf file entry, entry⟩ := by
        rw [operandOf, if_neg hfile, hentry]
        rfl
      refine ⟨?_, ?_, ?_, fun hnodup => ?_⟩
      · simp [hoperand]
      · simp [hoperand, hfile]
      · simpa [hoperand] using fun _ => entryOf_addresses hentry
      · exact List.concat_eq_append ▸ hnodup.concat hnew

theorem Added.append {archive archive' archive'' : Archive} {files files' : List File}
    (h : Added strip archive archive' files) (h' : Added strip archive' archive'' files') :
    Added strip archive archive'' (files ++ files') where
  args := by rw [h'.args, h.args, List.flatMap_append, List.append_assoc]
  seen := by rw [h'.seen, h.seen, List.filter_append, List.map_append, List.append_assoc]
  addresses := List.forall_mem_append.mpr ⟨h.addresses, h'.addresses⟩
  nodup := h'.nodup ∘ h.nodup

/-- **The loop.**  The files are added one by one, each under a new entry. -/
theorem foldlM_addFile {archive archive' : Archive} {files : List File}
    (h : files.foldlM (addFile strip) archive = .ok archive') :
    Added strip archive archive' files := by
  induction files generalizing archive with
  | nil =>
      cases h
      exact ⟨by simp, by simp, by simp, id⟩
  | cons file files ih =>
      rw [List.foldlM_cons] at h
      obtain ⟨middle, hfile, hfiles⟩ := Reader.bind_eq_ok.mp h
      exact (addFile_added hfile).append (ih hfiles)

/-- Files with different paths are sorted in one way. -/
theorem sorted_eq_of_perm {files files' : List File} (h : files.Perm files')
    (hdistinct : (files.map File.path).Nodup) : sorted files = sorted files' := by
  have hfirst : (sorted files).Perm files := List.perm_insertionSort pathLe files
  have hsecond : (sorted files').Perm files' := List.perm_insertionSort pathLe files'
  refine (hfirst.trans (h.trans hsecond.symm)).eq_of_pairwise ?_
    (List.pairwise_insertionSort pathLe files) (List.pairwise_insertionSort pathLe files')
  intro file file' hfile hfile' hle hge
  refine List.inj_on_of_nodup_map hdistinct (hfirst.mem_iff.mp hfile) ?_ (le_antisymm hle hge)
  exact h.mem_iff.mpr (hsecond.mem_iff.mp hfile')

/-- **Every file is addressed.**  However the files are listed, the rule fails in the same way or
runs the tool with the same arguments: one operand for each file, in the order of the paths.  An
operand names its file, stores it under what the prefix leaves of its short path, never outside
the archive, and no two files are stored under one name. -/
theorem jarImpl_addresses (ctx : Context) (hdistinct : (ctx.srcs.map File.path).Nodup) :
    (∀ srcs, ctx.srcs.Perm srcs →
      (jarImpl { ctx with srcs }).map Action.arguments = (jarImpl ctx).map Action.arguments) ∧
    ∀ action, jarImpl ctx = .ok action →
      ∃ files : List File, ∃ operand : File → Operand,
        files.Perm ctx.srcs ∧ files.Pairwise pathLe ∧
        action.arguments = ctx.options ++ (files.flatMap fun file => (operand file).args) ∧
        (∀ file ∈ ctx.srcs, file.isDirectory = true → operand file = ⟨file.path, "."⟩) ∧
        (∀ file ∈ ctx.srcs, file.isDirectory = false →
          Addresses (rstrip ctx.stripPrefix) file (operand file)) ∧
        ((files.filter fun file => !file.isDirectory).map fun file =>
          (operand file).entry).Nodup := by
  constructor
  · intro srcs hperm
    -- the rule sorts first, so the order in which the sources are listed is lost
    have hsorted := sorted_eq_of_perm hperm hdistinct
    have hoptions : Context.options { ctx with srcs } = ctx.options := rfl
    unfold jarImpl
    dsimp only
    rw [← hsorted, hoptions]
    cases (sorted ctx.srcs).foldlM (addFile (rstrip ctx.stripPrefix)) ⟨ctx.options, []⟩ with
    | error message => rfl
    | ok archive => rfl
  · intro action h
    obtain ⟨archive, hloop, h⟩ := Reader.bind_eq_ok.mp h
    cases h
    have hadded := foldlM_addFile hloop
    have hperm : (sorted ctx.srcs).Perm ctx.srcs := List.perm_insertionSort pathLe ctx.srcs
    refine ⟨sorted ctx.srcs, operandOf (rstrip ctx.stripPrefix), hperm,
      List.pairwise_insertionSort pathLe ctx.srcs, hadded.args, ?_, ?_, ?_⟩
    · intro file _ hdirectory
      rw [operandOf, if_pos hdirectory]
    · exact fun file hfile => hadded.addresses file (hperm.mem_iff.mpr hfile)
    · have hnodup := hadded.nodup List.nodup_nil
      rw [hadded.seen, List.nil_append] at hnodup
      exact hnodup

/-- A generated file of the main repository and a directory of another one. -/
def sampleFiles : List File :=
  [{ root := ["bazel-out", "bin"], repository := none, names := ["lib", "A.class"],
     nonempty := by decide, root_segments := by decide, repository_segment := by simp,
     names_segments := by decide },
   { root := [], repository := some "lib", names := ["classes"], isDirectory := true,
     nonempty := by decide, root_segments := by decide, repository_segment := by simp; decide,
     names_segments := by decide }]

def sampleContext : Context where
  name := "archive"
  outputDirectory := "bazel-out/bin"
  srcs := sampleFiles
  stripPrefix := "lib/"

theorem jarImpl_addresses_sample :
    (∀ srcs, sampleContext.srcs.Perm srcs →
      (jarImpl { sampleContext with srcs }).map Action.arguments =
        (jarImpl sampleContext).map Action.arguments) ∧
    ∀ action, jarImpl sampleContext = .ok action →
      ∃ files : List File, ∃ operand : File → Operand,
        files.Perm sampleContext.srcs ∧ files.Pairwise pathLe ∧
        action.arguments =
          sampleContext.options ++ (files.flatMap fun file => (operand file).args) ∧
        (∀ file ∈ sampleContext.srcs, file.isDirectory = true → operand file = ⟨file.path, "."⟩) ∧
        (∀ file ∈ sampleContext.srcs, file.isDirectory = false →
          Addresses (rstrip sampleContext.stripPrefix) file (operand file)) ∧
        ((files.filter fun file => !file.isDirectory).map
          fun file => (operand file).entry).Nodup :=
  jarImpl_addresses sampleContext (by decide)

example : (jarImpl sampleContext).toOption.map Action.arguments =
    some ["--no-env", "--no-properties", "jar", "--", "--create", "--date=1980-01-01T00:00:02Z",
      "--file", "bazel-out/bin/archive.jar", "-C", "bazel-out/bin/lib", "A.class", "-C",
      "external/lib/classes", "."] := by
  decide +kernel

end RulesElide.JvmTools
