import RulesElide.Platform.Files

/-!
# The launcher of Elide Python

`launcher.sh.tpl` takes from an ambient `PYTHONPATH` the entries whose text is `RUNFILES_DIR` or
begins with `RUNFILES_DIR/`.  What such an entry denotes may lie outside, as `..` is not
resolved; `isolates_iff` says that this is the only way an entry from outside comes through.
-/

namespace RulesElide.Python

/-! ## The filter -/

/-- The variables that the filter reads. -/
structure Environment where
  runfilesDir : Option String
  pythonpath : Option String

/-- `${value:-default}`. -/
def orDefault (value : Option String) (default : String) : String :=
  if value.getD "" = "" then default else value.getD ""

/-- `IFS=: read -r -a`: the fields of the first line.  A colon at its end ends the last field and
begins no other. -/
def readFields (value : String) : List String :=
  let fields := parts ':' (String.ofList (value.toList.takeWhile (· ≠ '\n')))
  if fields.getLast? = some "" then fields.dropLast else fields

/-- The patterns of the `case`. -/
def isKept (runfilesDir entry : String) : Bool :=
  entry = runfilesDir || startsWith entry (runfilesDir ++ "/")

/-- `${_elide_pythonpath:+$_elide_pythonpath:}$_elide_path`. -/
def appendEntry (pythonpath entry : String) : String :=
  (if pythonpath = "" then "" else pythonpath ++ ":") ++ entry

/-- The `PYTHONPATH` that the interpreter is started with. -/
def exportedPythonpath (environment : Environment) : String :=
  let runfilesDir := orDefault environment.runfilesDir "/dev/null"
  (readFields (orDefault environment.pythonpath "")).foldl (fun pythonpath entry =>
    if isKept runfilesDir entry then appendEntry pythonpath entry else pythonpath) ""

/-! ## Entries -/

/-- The entries that a `PYTHONPATH` has for the interpreter: an empty one has none. -/
def entries (pythonpath : String) : List String :=
  if pythonpath = "" then [] else parts ':' pythonpath

/-- What an entry denotes when `.` and `..` are resolved. -/
def resolve (workingDirectory : Path) (entry : String) : Path :=
  Path.normalize (if startsWith entry "/" then Path.names entry
    else workingDirectory ++ Path.names entry)

/-- The entry denotes the directory or something inside it. -/
def Inside (runfilesDir : String) (workingDirectory : Path) (entry : String) : Prop :=
  resolve workingDirectory runfilesDir <+: resolve workingDirectory entry

instance (runfilesDir : String) (workingDirectory : Path) :
    DecidablePred (Inside runfilesDir workingDirectory) := fun entry =>
  inferInstanceAs (Decidable
    (resolve workingDirectory runfilesDir <+: resolve workingDirectory entry))

/-- The directory, or an entry below it without `.` and `..`. -/
def isPlain (runfilesDir entry : String) : Bool :=
  entry = runfilesDir || startsWith entry (runfilesDir ++ "/") &&
    (Path.names (removePrefix entry (runfilesDir ++ "/"))).all fun name => name ≠ "." && name ≠ ".."

theorem isKept_of_isPlain {runfilesDir entry : String} (h : isPlain runfilesDir entry = true) :
    isKept runfilesDir entry = true := by
  rw [isPlain, Bool.or_eq_true, Bool.and_eq_true] at h
  rw [isKept, Bool.or_eq_true]
  exact h.imp_right And.left

theorem names_append (first second : String) :
    Path.names (first ++ "/" ++ second) = Path.names first ++ Path.names second := by
  have hparts := parts_append '/' first second
  rw [show '/'.toString = "/" from rfl] at hparts
  rw [Path.names, ← parts, hparts, List.filter_append]
  rfl

/-- Without `..`, an entry below the directory is inside. -/
theorem inside_of_notMem {runfilesDir rest : String} {workingDirectory : Path}
    (hrunfiles : startsWith runfilesDir "/" = true) (h : ".." ∉ Path.names rest) :
    Inside runfilesDir workingDirectory (runfilesDir ++ "/" ++ rest) := by
  have hentry : startsWith (runfilesDir ++ "/" ++ rest) "/" = true := by
    rw [startsWith_iff] at hrunfiles ⊢
    rw [String.toList_append, String.toList_append, List.append_assoc]
    exact hrunfiles.trans (List.prefix_append _ _)
  rw [Inside, resolve, resolve, if_pos hrunfiles, if_pos hentry, names_append, Path.normalize,
    Path.normalize, List.foldl_append]
  generalize List.foldl _ [] (Path.names runfilesDir) = directory
  -- every name after the directory keeps it in front
  refine List.foldlRecOn _ _ (motive := (directory <+: ·)) (List.prefix_refl _) ?_
  intro path ih name hname
  split
  · exact ih
  · have hother : name ≠ ".." := fun hdots => h (hdots ▸ hname)
    rw [if_neg hother]
    exact ih.trans (List.prefix_append _ _)

/-! ## What is exported -/

theorem filter_readFields {keep : String → Bool} {value : String} (hline : '\n' ∉ value.toList)
    (hempty : keep "" = false) : (readFields value).filter keep = (entries value).filter keep := by
  have hfirst : String.ofList (value.toList.takeWhile (· ≠ '\n')) = value := by
    have hall : ∀ character ∈ value.toList, decide (character ≠ '\n') = true :=
      fun character hcharacter => decide_eq_true (ne_of_mem_of_not_mem hcharacter hline)
    rw [List.takeWhile_eq_self_iff.mpr hall, String.ofList_toList]
  have hfields : (readFields value).filter keep = (parts ':' value).filter keep := by
    unfold readFields
    rw [hfirst]
    dsimp only
    -- `read` drops an empty field at the end, which the loop would not keep either
    split
    · rename_i hlast
      conv_rhs => rw [← List.dropLast_append_getLast? "" hlast]
      rw [List.filter_append, List.filter_cons_of_neg (by simp [hempty]), List.filter_nil,
        List.append_nil]
    · rfl
  rw [hfields, entries]
  split
  · rename_i hvalue
    subst hvalue
    rw [show parts ':' "" = [""] from rfl, List.filter_cons_of_neg (by simp [hempty])]
  · rfl

/-- The loop joins the entries that it keeps. -/
theorem foldl_appendEntry {values : List String} (h : ∀ value ∈ values, value ≠ "") :
    values.foldl appendEntry "" = ":".intercalate values := by
  have hjoin : appendEntry = joinWith ":" := by
    funext pythonpath entry
    unfold appendEntry joinWith
    split <;> simp
  rw [hjoin, foldl_joinWith h]

theorem entries_intercalate {values : List String} (h : ∀ value ∈ values, value ≠ "")
    (hcolon : ∀ value ∈ values, ':' ∉ value.toList) :
    entries (":".intercalate values) = values := by
  by_cases hnil : values = []
  · subst hnil
    rfl
  · rw [entries, if_neg (intercalate_ne_empty h hnil)]
    exact parts_intercalate hcolon hnil

theorem notMem_of_mem_entries {pythonpath entry : String} (h : entry ∈ entries pythonpath) :
    ':' ∉ entry.toList := by
  unfold entries at h
  split at h
  · exact absurd h List.not_mem_nil
  · exact notMem_of_mem_parts h

section Launch

variable {runfilesDir : String} {pythonpath : Option String}

/-- The entries of the ambient value that are kept. -/
def keptEntries (runfilesDir : String) (pythonpath : Option String) : List String :=
  (entries (pythonpath.getD "")).filter (isKept runfilesDir)

theorem ne_empty_of_isKept {entry : String} (hrunfiles : runfilesDir ≠ "")
    (h : isKept runfilesDir entry = true) : entry ≠ "" := by
  rintro rfl
  rw [isKept, Bool.or_eq_true] at h
  rcases h with heq | hbelow
  · exact hrunfiles (of_decide_eq_true heq).symm
  · rw [startsWith_iff, String.toList_append] at hbelow
    simpa using hbelow.length_le

theorem exportedPythonpath_eq (hrunfiles : runfilesDir ≠ "")
    (hline : '\n' ∉ (pythonpath.getD "").toList) :
    exportedPythonpath ⟨some runfilesDir, pythonpath⟩ =
      ":".intercalate (keptEntries runfilesDir pythonpath) := by
  have hdirectory : orDefault (some runfilesDir) "/dev/null" = runfilesDir := if_neg hrunfiles
  have hvalue : orDefault pythonpath "" = pythonpath.getD "" := by
    unfold orDefault
    split
    · rename_i hempty
      exact hempty.symm
    · rfl
  have hempty : isKept runfilesDir "" = false :=
    Bool.eq_false_iff.mpr fun hkept => ne_empty_of_isKept hrunfiles hkept rfl
  rw [exportedPythonpath, hdirectory, hvalue, ← List.foldl_filter, filter_readFields hline hempty]
  exact foldl_appendEntry fun entry hentry =>
    ne_empty_of_isKept hrunfiles (List.mem_filter.mp hentry).2

theorem entries_exportedPythonpath (hrunfiles : runfilesDir ≠ "")
    (hline : '\n' ∉ (pythonpath.getD "").toList) :
    entries (exportedPythonpath ⟨some runfilesDir, pythonpath⟩) =
      keptEntries runfilesDir pythonpath := by
  rw [exportedPythonpath_eq hrunfiles hline]
  refine entries_intercalate (fun entry hentry => ?_) fun entry hentry => ?_
  · exact ne_empty_of_isKept hrunfiles (List.mem_filter.mp hentry).2
  · exact notMem_of_mem_entries (List.mem_filter.mp hentry).1

/-! ## What comes through -/

/-- Everything on the exported path is inside. -/
def Contained (runfilesDir : String) (workingDirectory : Path) (pythonpath : Option String) :
    Prop :=
  ∀ entry ∈ entries (exportedPythonpath ⟨some runfilesDir, pythonpath⟩),
    Inside runfilesDir workingDirectory entry

/-- The plain entries are kept as often as they were, in order. -/
def KeepsPlain (runfilesDir : String) (pythonpath : Option String) : Prop :=
  (entries (exportedPythonpath ⟨some runfilesDir, pythonpath⟩)).filter (isPlain runfilesDir) =
    (entries (pythonpath.getD "")).filter (isPlain runfilesDir)

/-- The values are the same but for entries that denote something outside. -/
def SameInside (runfilesDir : String) (workingDirectory : Path) (first second : Option String) :
    Prop :=
  (entries (first.getD "")).filter (Inside runfilesDir workingDirectory) =
    (entries (second.getD "")).filter (Inside runfilesDir workingDirectory)

/-- No entry that is spelled below the directory denotes something outside. -/
def NothingEscapes (runfilesDir : String) (workingDirectory : Path) (pythonpath : Option String) :
    Prop :=
  ∀ rest, runfilesDir ++ "/" ++ rest ∈ entries (pythonpath.getD "") →
    Inside runfilesDir workingDirectory (runfilesDir ++ "/" ++ rest)

variable {workingDirectory : Path}

theorem nothingEscapes_iff : NothingEscapes runfilesDir workingDirectory pythonpath ↔
    ∀ entry ∈ entries (pythonpath.getD ""), isKept runfilesDir entry = true →
      Inside runfilesDir workingDirectory entry := by
  constructor
  · intro h entry hentry hkept
    rw [isKept, Bool.or_eq_true] at hkept
    rcases hkept with heq | hbelow
    · rw [of_decide_eq_true heq]
      exact List.prefix_refl _
    · rw [← append_removePrefix hbelow] at hentry ⊢
      exact h _ hentry
  · intro h rest hrest
    refine h _ hrest ?_
    rw [isKept, startsWith_append, Bool.or_true]

/-- Only a `..` leads outside. -/
theorem nothingEscapes_of_notMem (hrunfiles : startsWith runfilesDir "/" = true)
    (h : ∀ entry ∈ entries (pythonpath.getD ""), ".." ∉ Path.names entry) :
    NothingEscapes runfilesDir workingDirectory pythonpath := by
  intro rest hrest
  refine inside_of_notMem hrunfiles fun hdots => h _ hrest ?_
  rw [names_append]
  exact List.mem_append_right _ hdots

theorem contained_iff (hrunfiles : runfilesDir ≠ "")
    (hline : '\n' ∉ (pythonpath.getD "").toList) :
    Contained runfilesDir workingDirectory pythonpath ↔
      NothingEscapes runfilesDir workingDirectory pythonpath := by
  rw [nothingEscapes_iff, Contained, entries_exportedPythonpath hrunfiles hline, keptEntries]
  simp only [List.mem_filter, and_imp]

theorem keepsPlain (hrunfiles : runfilesDir ≠ "")
    (hline : '\n' ∉ (pythonpath.getD "").toList) : KeepsPlain runfilesDir pythonpath := by
  rw [KeepsPlain, entries_exportedPythonpath hrunfiles hline, keptEntries, List.filter_filter]
  refine List.filter_congr fun entry _ => ?_
  by_cases hplain : isPlain runfilesDir entry = true
  · rw [hplain, isKept_of_isPlain hplain, Bool.and_self]
  · rw [Bool.eq_false_iff.mpr hplain, Bool.false_and]

/-- What is kept depends on the entries inside alone. -/
theorem keptEntries_eq (h : NothingEscapes runfilesDir workingDirectory pythonpath) :
    keptEntries runfilesDir pythonpath =
      ((entries (pythonpath.getD "")).filter (Inside runfilesDir workingDirectory)).filter
        (isKept runfilesDir) := by
  rw [keptEntries, List.filter_filter]
  refine List.filter_congr fun entry hentry => ?_
  by_cases hkept : isKept runfilesDir entry = true
  · rw [hkept, decide_eq_true (nothingEscapes_iff.mp h entry hentry hkept), Bool.and_self]
  · rw [Bool.eq_false_iff.mpr hkept, Bool.false_and]

end Launch

/-- **Nothing else comes through.**  The launcher exports entries inside the runfiles directory
only, keeps the plain ones and is blind to entries outside, exactly when neither of the two ambient
values has an entry that is spelled below the directory and denotes something outside. -/
theorem isolates_iff (runfilesDir : String) (workingDirectory : Path)
    (first second : Option String) (hrunfiles : startsWith runfilesDir "/" = true)
    (hfirst : '\n' ∉ (first.getD "").toList) (hsecond : '\n' ∉ (second.getD "").toList) :
    (Contained runfilesDir workingDirectory first ∧ Contained runfilesDir workingDirectory second ∧
        KeepsPlain runfilesDir first ∧ KeepsPlain runfilesDir second ∧
        (SameInside runfilesDir workingDirectory first second →
          exportedPythonpath ⟨some runfilesDir, first⟩ =
            exportedPythonpath ⟨some runfilesDir, second⟩)) ↔
      NothingEscapes runfilesDir workingDirectory first ∧
        NothingEscapes runfilesDir workingDirectory second := by
  have hne : runfilesDir ≠ "" := by
    rintro rfl
    exact absurd hrunfiles (by decide)
  rw [contained_iff hne hfirst, contained_iff hne hsecond]
  constructor
  · rintro ⟨hescapes, hescapes', -⟩
    exact ⟨hescapes, hescapes'⟩
  · rintro ⟨hescapes, hescapes'⟩
    -- what does not escape is kept by its place alone, so equal places export equally
    refine ⟨hescapes, hescapes', keepsPlain hne hfirst, keepsPlain hne hsecond, fun hsame => ?_⟩
    rw [exportedPythonpath_eq hne hfirst, exportedPythonpath_eq hne hsecond,
      keptEntries_eq hescapes, keptEntries_eq hescapes', hsame]

theorem isolates_iff_sample :
    Contained "/r" [] (some "/r/a::/x:/r:") ∧ Contained "/r" [] (some "/r/a:/r") ∧
      KeepsPlain "/r" (some "/r/a::/x:/r:") ∧ KeepsPlain "/r" (some "/r/a:/r") ∧
      (SameInside "/r" [] (some "/r/a::/x:/r:") (some "/r/a:/r") →
        exportedPythonpath ⟨some "/r", some "/r/a::/x:/r:"⟩ =
          exportedPythonpath ⟨some "/r", some "/r/a:/r"⟩) :=
  (isolates_iff "/r" [] (some "/r/a::/x:/r:") (some "/r/a:/r") (by decide) (by decide)
    (by decide)).mpr ⟨nothingEscapes_of_notMem (by decide) (by decide),
      nothingEscapes_of_notMem (by decide) (by decide)⟩

/-- `/r/../x` is exported although it denotes `/x`. -/
theorem parent_comes_through :
    ¬ ∀ (runfilesDir : String) (workingDirectory : Path) (first second : Option String),
      startsWith runfilesDir "/" = true → '\n' ∉ (first.getD "").toList →
      '\n' ∉ (second.getD "").toList →
      Contained runfilesDir workingDirectory first ∧ Contained runfilesDir workingDirectory second ∧
        KeepsPlain runfilesDir first ∧ KeepsPlain runfilesDir second ∧
        (SameInside runfilesDir workingDirectory first second →
          exportedPythonpath ⟨some runfilesDir, first⟩ =
            exportedPythonpath ⟨some runfilesDir, second⟩) := by
  intro h
  have hcontained := (h "/r" [] (some "/r/../x") none (by decide) (by decide) (by decide)).1
  have hinside : Inside "/r" [] "/r/../x" :=
    (contained_iff (by decide) (by decide)).mp hcontained "../x" (by decide)
  exact absurd hinside (by decide)

end RulesElide.Python
