import RulesElide.KotlinBuilder.Machine

/-!
# Unpacking source jars

`ElideCompile.extractSourceJars`.  The jars are unpacked into one directory, entry by entry, and
each entry is resolved among the files that the earlier ones left.  `extraction_stays_inside`
says that nothing outside of the directory is touched, and `every_source_once_iff` when no source
is lost.
-/

namespace RulesElide.KotlinBuilder

open Effects FileTree

/-! ## The code -/

structure ZipEntry where
  name : String
  /-- `getInputStream`: the bytes that are copied, and what is thrown after them. -/
  content : Except Throwable (Bytes × Option Throwable)

/-- What the loop does not skip. -/
def ZipEntry.isSource (entry : ZipEntry) : Bool :=
  !endsWith entry.name "/" && (endsWith entry.name ".kt" || endsWith entry.name ".java")

/-- What the machine decides while jars are unpacked. -/
structure Unpacking where
  /-- `ZipFile(File(jar)).entries()`. -/
  zipFile : String → Except Throwable (List ZipEntry)
  /-- Where nothing can be created or written. -/
  denied : Path → Bool := fun _ => false

/-- `File(into, name).canonicalFile`. -/
def destination (files : Files Bytes) (into : Path) (name : String) : Except Throwable Path :=
  if Char.ofNat 0 ∈ name.toList then .error (.ioException "Invalid file path")
  else canonicalize files (into ++ Path.names name)

/-- The body of the loop over the entries. -/
def extractEntry (system : Unpacking) (into intoCanonical : Path) (entry : ZipEntry) :
    Program (Option String) := do
  if !entry.isSource then return none
  else do
    let dest ← MonadExcept.ofExcept (destination (← get).files into entry.name)
    if ¬ intoCanonical <+: dest then
      throw (.securityException ("source jar entry escapes destination: " ++ entry.name))
    else do
      mkdirs system.denied dest.dropLast
      let (bytes, failure) ← MonadExcept.ofExcept entry.content
      writeFile system.denied dest bytes
      match failure with
      | some failure => throw failure
      | none => return some dest.toString

/-- The loop over the entries of a jar. -/
def extractEntries (system : Unpacking) (into intoCanonical : Path) (extracted : List String) :
    List ZipEntry → Program (List String)
  | [] => return extracted
  | entry :: entries => do
      let path ← extractEntry system into intoCanonical entry
      extractEntries system into intoCanonical (extracted ++ path.toList) entries

/-- The loop over the jars. -/
def extractJars (system : Unpacking) (into intoCanonical : Path) (extracted : List String) :
    List String → Program (List String)
  | [] => return extracted
  | jar :: jars => do
      let entries ← MonadExcept.ofExcept (system.zipFile jar)
      let extracted ← extractEntries system into intoCanonical extracted entries
      extractJars system into intoCanonical extracted jars

/-- `extractSourceJars`. -/
def extractSourceJars (system : Unpacking) (sourceJars : List String) (into : Path) :
    Program (List String) := do
  let intoCanonical ← MonadExcept.ofExcept (canonicalize (← get).files into)
  extractJars system into intoCanonical [] sourceJars

/-! ## One loop over all entries -/

/-- The entries of all jars, and the exceptions for the jars that cannot be opened. -/
def items (system : Unpacking) (sourceJars : List String) : List (Except Throwable ZipEntry) :=
  sourceJars.flatMap fun jar =>
    match system.zipFile jar with
    | .ok entries => entries.map .ok
    | .error failure => [.error failure]

def extractItems (system : Unpacking) (into intoCanonical : Path) (extracted : List String) :
    List (Except Throwable ZipEntry) → Program (List String)
  | [] => return extracted
  | item :: items => do
      let entry ← MonadExcept.ofExcept item
      let path ← extractEntry system into intoCanonical entry
      extractItems system into intoCanonical (extracted ++ path.toList) items

variable {system : Unpacking} {into directory : Path} {machine start after : Machine}

theorem extractItems_append (extracted : List String)
    (first second : List (Except Throwable ZipEntry)) :
    extractItems system into directory extracted (first ++ second) =
      extractItems system into directory extracted first >>= fun extracted =>
        extractItems system into directory extracted second := by
  induction first generalizing extracted with
  | nil => rw [List.nil_append, extractItems, pure_bind]
  | cons item first ih =>
      rw [List.cons_append, extractItems, extractItems, bind_assoc]
      simp only [bind_assoc, ih]

theorem extractItems_entries (extracted : List String) (entries : List ZipEntry) :
    extractItems system into directory extracted (entries.map .ok) =
      extractEntries system into directory extracted entries := by
  induction entries generalizing extracted with
  | nil => rfl
  | cons entry entries ih =>
      rw [List.map_cons, extractItems, extractEntries]
      simp only [ih]
      exact pure_bind entry _

/-- The two loops are one. -/
theorem extractJars_eq (extracted : List String) (jars : List String) :
    extractJars system into directory extracted jars =
      extractItems system into directory extracted (items system jars) := by
  induction jars generalizing extracted with
  | nil => rfl
  | cons jar jars ih =>
      rw [extractJars, items, List.flatMap_cons, ← items, extractItems_append]
      simp only [← ih]
      cases system.zipFile jar with
      | ok entries =>
          simp only [extractItems_entries]
          exact pure_bind entries _
      | error failure => rfl

/-! ## Staying inside -/

theorem canonicalize_of_destination {files : Files Bytes} {name : String} {dest : Path}
    (h : destination files into name = .ok dest) :
    canonicalize files (into ++ Path.names name) = .ok dest := by
  unfold destination at h
  split at h
  · cases h
  · exact h

/-- The name of an entry leads below the directory. -/
def ResolvesInside (files : Files Bytes) (into directory : Path) (name : String) : Prop :=
  ∃ dest, destination files into name = .ok dest ∧ directory <+: dest

theorem extractEntry_contained (h : Plain start.files directory) (entry : ZipEntry) :
    Triple (Contained directory start) (extractEntry system into directory entry)
      (fun _ => Contained directory start) (fun _ => Contained directory start) := by
  unfold extractEntry
  split
  · exact Triple.pure fun _ hcontained => hcontained
  · refine Triple.get_bind fun machine hcontained => ?_
    refine Triple.ofExcept_bind (fun dest hdest => ?_) fun _ _ _ hstate => hstate ▸ hcontained
    -- a canonical path has no dots, so lying below the directory is a matter of prefixes
    have hcollapsed := collapsed_of_canonicalize (canonicalize_of_destination hdest)
    split
    · exact Triple.throw fun _ hstate => hstate ▸ hcontained
    · rename_i hinside
      rw [not_not] at hinside
      refine Triple.bind ((mkdirs_contained h hinside hcollapsed).at_state hcontained) fun _ => ?_
      refine Triple.ofExcept_bind (fun content _ => ?_) fun _ _ _ hcontained => hcontained
      refine Triple.bind (writeFile_contained h hinside hcollapsed content.1) fun _ => ?_
      split
      · exact Triple.throw fun _ hcontained => hcontained
      · exact Triple.pure fun _ hcontained => hcontained

theorem extractItems_contained (h : Plain start.files directory) (extracted : List String)
    (items : List (Except Throwable ZipEntry)) :
    Triple (Contained directory start) (extractItems system into directory extracted items)
      (fun _ => Contained directory start) (fun _ => Contained directory start) := by
  induction items generalizing extracted with
  | nil => exact Triple.pure fun _ hcontained => hcontained
  | cons item items ih =>
      refine Triple.ofExcept_bind (fun entry _ => ?_) fun _ _ _ hcontained => hcontained
      exact Triple.bind (extractEntry_contained h entry) fun _ => ih _

/-- An entry was extracted to `dest`. -/
structure Extraction (into directory : Path) (entry : ZipEntry) (machine after : Machine)
    (dest : Path) (bytes : Bytes) : Prop where
  resolves : destination machine.files into entry.name = .ok dest
  inside : directory <+: dest
  content : entry.content = .ok (bytes, none)
  written : directory ≠ [] → after.files.node dest = some (.file bytes)
  kept : directory ≠ [] → ∀ other content, other ≠ dest →
    machine.files.node other = some (.file content) → after.files.node other = some (.file content)

theorem extractEntry_ok {entry : ZipEntry} {path : Option String}
    (hplain : Plain machine.files directory)
    (h : run (extractEntry system into directory entry) machine = (.ok path, after)) :
    (entry.isSource = false ∧ path = none ∧ after = machine) ∨
      entry.isSource = true ∧ ∃ dest bytes, path = some dest.toString ∧
        Extraction into directory entry machine after dest bytes := by
  unfold extractEntry at h
  split at h
  · rename_i hskip
    cases h
    exact Or.inl ⟨by simpa using hskip, rfl, rfl⟩
  · rename_i hsource
    refine Or.inr ⟨by simpa using hsource, ?_⟩
    obtain ⟨current, _, hget, h⟩ := run_bind_eq_ok.mp h
    cases hget
    obtain ⟨dest, _, hresolve, h⟩ := run_bind_eq_ok.mp h
    rw [run_ofExcept] at hresolve
    obtain ⟨hdest, rfl⟩ := Prod.mk.inj hresolve
    have hcollapsed := collapsed_of_canonicalize (canonicalize_of_destination hdest)
    split at h
    · cases h
    · rename_i hinside
      rw [not_not] at hinside
      obtain ⟨_, middle, hmkdirs, h⟩ := run_bind_eq_ok.mp h
      obtain ⟨content, _, hread, h⟩ := run_bind_eq_ok.mp h
      rw [run_ofExcept] at hread
      obtain ⟨hcontent, rfl⟩ := Prod.mk.inj hread
      obtain ⟨bytes, failure⟩ := content
      obtain ⟨_, final, hwrite, h⟩ := run_bind_eq_ok.mp h
      cases failure with
      | some failure => cases h
      | none =>
          cases h
          refine ⟨dest, bytes, rfl, hdest, hinside, hcontent, fun hroot => ?_, fun hroot => ?_⟩
          · exact (node_of_written hplain hinside hcollapsed hroot hmkdirs hwrite).1
          · exact (node_of_written hplain hinside hcollapsed hroot hmkdirs hwrite).2

/-- Without symbolic links, a name that leads below the directory leads where it says. -/
theorem Plain.eq_normalize {files : Files Bytes} {name : String} {dest : Path}
    (h : Plain files directory) (hlinks : files.NoLinks []) (hroot : directory ≠ [])
    (hdest : destination files into name = .ok dest) (hinside : directory <+: dest) :
    dest = Path.normalize (into ++ Path.names name) := by
  refine normalize_of_canonicalize hlinks (canonicalize_of_destination hdest) fun hdots => ?_
  obtain ⟨first, rest, rfl⟩ := List.exists_cons_of_ne_nil hroot
  obtain ⟨tail, rfl⟩ := hinside
  have hproper := files.proper_of_mem (h.node ▸ Option.some_ne_none _) List.mem_cons_self
  exact hproper.2.1 (Option.some.inj hdots)

theorem run_extractSourceJars (hcanonical : canonicalize machine.files into = .ok directory)
    (sourceJars : List String) :
    run (extractSourceJars system sourceJars into) machine =
      run (extractItems system into directory [] (items system sourceJars)) machine := by
  unfold extractSourceJars
  rw [run_bind_of_ok (run_get machine), hcanonical]
  rw [← extractJars_eq]
  rfl

/-- If all entries are extracted, each of them leads below the directory when it is reached. -/
theorem resolvesInside_of_ok {earlier later : List (Except Throwable ZipEntry)} {entry : ZipEntry}
    {extracted paths : List String} (hplain : Plain machine.files directory)
    (hsource : entry.isSource = true)
    (h : run (extractItems system into directory extracted (earlier ++ .ok entry :: later))
      machine = (.ok paths, after)) :
    ∃ collected middle,
      run (extractItems system into directory extracted earlier) machine = (.ok collected, middle) ∧
        Contained directory machine middle ∧
        ResolvesInside middle.files into directory entry.name := by
  rw [extractItems_append] at h
  -- the entries before this one have left the directory plain
  obtain ⟨collected, middle, hearlier, h⟩ := run_bind_eq_ok.mp h
  have hmiddle := (extractItems_contained hplain extracted earlier).ok
    (Contained.refl directory machine) hearlier
  refine ⟨collected, middle, hearlier, hmiddle, ?_⟩
  obtain ⟨reached, _, hitem, h⟩ := run_bind_eq_ok.mp h
  cases hitem
  obtain ⟨path, final, hentry, _⟩ := run_bind_eq_ok.mp h
  rcases extractEntry_ok (hplain.of_contained hmiddle) hentry with
    ⟨hskip, _⟩ | ⟨_, dest, _, _, hdest⟩
  · rw [hsource] at hskip
    cases hskip
  · exact ⟨dest, hdest.resolves, hdest.inside⟩

/-- **Extraction stays inside.**  Whatever the entries are called, and whether or not the call
throws, it creates and writes files strictly inside the directory only and leaves everything else
as it is; and it throws if an entry, at the time it is reached, leads anywhere else.  Without
symbolic links it is enough that the name leads elsewhere on paper. -/
theorem extraction_stays_inside (system : Unpacking) (sourceJars : List String)
    (into directory : Path) (machine : Machine)
    (hcanonical : canonicalize machine.files into = .ok directory)
    (hplain : Plain machine.files directory) :
    (∀ path ∈ (run (extractSourceJars system sourceJars into) machine).2.touched,
      path ∈ machine.touched ∨ StrictlyInside directory path) ∧
    (∀ path, ¬ StrictlyInside directory path →
      (run (extractSourceJars system sourceJars into) machine).2.files.node path =
        machine.files.node path) ∧
    ∀ earlier entry later, items system sourceJars = earlier ++ .ok entry :: later →
      entry.isSource = true →
      ((∀ extracted middle,
          run (extractItems system into directory [] earlier) machine = (.ok extracted, middle) →
            ¬ ResolvesInside middle.files into directory entry.name) ∨
        machine.files.NoLinks [] ∧
          ¬ directory <+: Path.normalize (into ++ Path.names entry.name)) →
      (run (extractSourceJars system sourceJars into) machine).1.isOk = false := by
  rw [run_extractSourceJars hcanonical]
  have hcontained : Contained directory machine
      (run (extractItems system into directory [] (items system sourceJars)) machine).2 :=
    (extractItems_contained hplain [] _).after (Contained.refl directory machine)
  refine ⟨hcontained.touched, hcontained.unchanged, ?_⟩
  intro earlier entry later hitems hsource hescapes
  -- a call that returns has resolved this entry inside, against the assumption
  match hrun : run (extractItems system into directory [] (items system sourceJars)) machine with
  | (.error _, _) => rfl
  | (.ok paths, after) =>
      rw [hitems] at hrun
      obtain ⟨extracted, middle, hearlier, hmiddle, dest, hdest, hinside⟩ :=
        resolvesInside_of_ok hplain hsource hrun
      rcases hescapes with hreached | ⟨hlinks, hlexical⟩
      · exact absurd ⟨dest, hdest, hinside⟩ (hreached extracted middle hearlier)
      · have hroot : directory ≠ [] := fun hroot => hlexical (hroot ▸ List.nil_prefix)
        have heq := (hplain.of_contained hmiddle).eq_normalize (hmiddle.noLinks [] hlinks) hroot
          hdest hinside
        exact absurd (heq ▸ hinside) hlexical

/-- The directory `/into` and nothing else. -/
def sampleMachine : Machine where
  files := Files.empty.put ["into"] .directory (by decide)

theorem sampleMachine_noLinks : sampleMachine.files.NoLinks [] :=
  Files.noLinks_empty.put (by decide) fun _ _ h => by cases h

theorem sampleMachine_plain : Plain sampleMachine.files ["into"] where
  node := rfl
  noLinks := sampleMachine_noLinks.below

/-- A jar with one entry, and one with an entry that climbs to a sibling of `/into`. -/
def sampleUnpacking : Unpacking where
  zipFile jar :=
    if jar = "a.jar" then .ok [⟨"pkg/./A.kt", .ok ([1], none)⟩]
    else if jar = "b.jar" then .ok [⟨"pkg//A.kt", .ok ([2], none)⟩]
    else .ok [⟨"../into2/A.kt", .ok ([3], none)⟩]

theorem extraction_stays_inside_sample :
    (run (extractSourceJars sampleUnpacking ["a.jar", "evil.jar"] ["into"]) sampleMachine).1.isOk =
        false ∧
      ∀ path, ¬ StrictlyInside ["into"] path →
        (run (extractSourceJars sampleUnpacking ["a.jar", "evil.jar"] ["into"])
          sampleMachine).2.files.node path = sampleMachine.files.node path := by
  have hcanonical : canonicalize sampleMachine.files ["into"] = .ok ["into"] := by
    decide +kernel
  obtain ⟨_, hunchanged, hthrows⟩ := extraction_stays_inside sampleUnpacking ["a.jar", "evil.jar"]
    ["into"] ["into"] sampleMachine hcanonical sampleMachine_plain
  refine ⟨hthrows [.ok ⟨"pkg/./A.kt", .ok ([1], none)⟩] ⟨"../into2/A.kt", .ok ([3], none)⟩ [] rfl
    (by decide +kernel) (Or.inr ⟨sampleMachine_noLinks, by decide +kernel⟩), hunchanged⟩

/-! ## Losing no source -/

/-- The `.kt` and `.java` entries. -/
def sources (items : List (Except Throwable ZipEntry)) : List ZipEntry :=
  (items.filterMap Except.toOption).filter ZipEntry.isSource

/-- The paths that the sources resolve to, each of them among the files that are there when the
loop reaches it. -/
inductive Resolved (system : Unpacking) (into directory : Path) :
    Machine → List (Except Throwable ZipEntry) → List Path → Prop
  | nil {machine : Machine} : Resolved system into directory machine [] []
  | skip {machine : Machine} {entry : ZipEntry} {items : List (Except Throwable ZipEntry)}
      {dests : List Path} (hskip : entry.isSource = false)
      (h : Resolved system into directory machine items dests) :
      Resolved system into directory machine (.ok entry :: items) dests
  | source {machine after : Machine} {entry : ZipEntry} {items : List (Except Throwable ZipEntry)}
      {dests : List Path} {dest : Path} {path : Option String} (hsource : entry.isSource = true)
      (hdest : destination machine.files into entry.name = .ok dest)
      (hentry : run (extractEntry system into directory entry) machine = (.ok path, after))
      (h : Resolved system into directory after items dests) :
      Resolved system into directory machine (.ok entry :: items) (dest :: dests)

theorem Resolved.unique {items : List (Except Throwable ZipEntry)} {dests dests' : List Path}
    (h : Resolved system into directory machine items dests)
    (h' : Resolved system into directory machine items dests') : dests = dests' := by
  induction h generalizing dests' with
  | nil =>
      cases h'
      rfl
  | skip hskip _ ih =>
      cases h' with
      | skip _ h' => exact ih h'
      | source hsource => exact absurd (hskip.symm.trans hsource) (by decide)
  | source hsource hdest hentry _ ih =>
      cases h' with
      | skip hskip => exact absurd (hskip.symm.trans hsource) (by decide)
      | source _ hdest' hentry' h' =>
          -- both resolve in the same state and write the same entry
          obtain rfl := Except.ok.inj (hdest.symm.trans hdest')
          obtain rfl := (Prod.mk.inj (hentry.symm.trans hentry')).2
          rw [ih h']

/-- The returned paths are distinct, and every source is at one of them. -/
structure SourcesOnce (entries : List ZipEntry) (paths : List String) (after : Machine) : Prop where
  distinct : paths.Nodup
  found : ∀ entry ∈ entries, ∃ path : Path, path.toString ∈ paths ∧
    ∃ bytes, entry.content = .ok (bytes, none) ∧ after.files.node path = some (.file bytes)

/-- What is known once all entries are extracted to `dests`. -/
structure Unpacked (into : Path) (machine after : Machine)
    (items : List (Except Throwable ZipEntry)) (dests : List Path) : Prop where
  names : ∀ dest ∈ dests, ∀ name ∈ dest, Path.IsName name
  lexical : machine.files.NoLinks [] →
    dests = (sources items).map fun entry => Path.normalize (into ++ Path.names entry.name)
  kept : ∀ path content, path ∉ dests → machine.files.node path = some (.file content) →
    after.files.node path = some (.file content)
  written : dests.Nodup → ∀ entry ∈ sources items, ∃ dest ∈ dests,
    ∃ bytes, entry.content = .ok (bytes, none) ∧ after.files.node dest = some (.file bytes)

theorem sources_skip {entry : ZipEntry} {items : List (Except Throwable ZipEntry)}
    (h : entry.isSource = false) : sources (.ok entry :: items) = sources items := by
  exact List.filter_cons_of_neg (by simp [h])

theorem sources_cons {entry : ZipEntry} {items : List (Except Throwable ZipEntry)}
    (h : entry.isSource = true) : sources (.ok entry :: items) = entry :: sources items := by
  exact List.filter_cons_of_pos h

/-- One more entry in front. -/
theorem Unpacked.cons {middle : Machine} {entry : ZipEntry}
    {items : List (Except Throwable ZipEntry)}
    {dests : List Path} {dest : Path} {bytes : Bytes} (h : Unpacked into middle after items dests)
    (hinto : ∀ name ∈ into, Path.IsName name) (hroot : directory ≠ [])
    (hplain : Plain machine.files directory) (hmiddle : Contained directory machine middle)
    (hsource : entry.isSource = true)
    (hentry : Extraction into directory entry machine middle dest bytes) :
    Unpacked into machine after (.ok entry :: items) (dest :: dests) where
  names other hother := by
    rcases List.mem_cons.mp hother with rfl | hlater
    · refine isName_of_canonicalize (fun name hname => ?_)
        (canonicalize_of_destination hentry.resolves)
      exact (List.mem_append.mp hname).elim (hinto name) Path.isName_of_mem_names
    · exact h.names other hlater
  lexical hlinks := by
    rw [sources_cons hsource, List.map_cons, ← h.lexical (hmiddle.noLinks [] hlinks),
      hplain.eq_normalize hlinks hroot hentry.resolves hentry.inside]
  kept path content hpath hfile := by
    obtain ⟨hne, hlater⟩ := List.ne_and_not_mem_of_not_mem_cons hpath
    exact h.kept path content hlater (hentry.kept hroot path content hne hfile)
  written hnodup other hother := by
    obtain ⟨hnew, hdistinct⟩ := List.nodup_cons.mp hnodup
    rw [sources_cons hsource] at hother
    rcases List.mem_cons.mp hother with rfl | hlater
    · -- no later entry is written to the same path
      exact ⟨dest, List.mem_cons_self, bytes, hentry.content,
        h.kept dest bytes hnew (hentry.written hroot)⟩
    · obtain ⟨found, hfound, hfile⟩ := h.written hdistinct other hlater
      exact ⟨found, List.mem_cons_of_mem _ hfound, hfile⟩

theorem extractItems_unpacked (hinto : ∀ name ∈ into, Path.IsName name) (hroot : directory ≠ [])
    {items : List (Except Throwable ZipEntry)} :
    ∀ {machine : Machine} {extracted paths : List String}, Plain machine.files directory →
      run (extractItems system into directory extracted items) machine = (.ok paths, after) →
      ∃ dests, Resolved system into directory machine items dests ∧
        paths = extracted ++ dests.map Path.toString ∧ Unpacked into machine after items dests := by
  induction items with
  | nil =>
      intro machine extracted paths _ h
      cases h
      exact ⟨[], .nil, (List.append_nil _).symm, nofun, fun _ => rfl, fun _ _ _ h => h, nofun⟩
  | cons item items ih =>
      intro machine extracted paths hplain h
      obtain ⟨entry, _, hitem, h⟩ := run_bind_eq_ok.mp h
      rw [run_ofExcept] at hitem
      obtain ⟨rfl, rfl⟩ := Prod.mk.inj hitem
      obtain ⟨path, middle, hentry, h⟩ := run_bind_eq_ok.mp h
      have hmiddle : Contained directory machine middle :=
        (extractEntry_contained hplain entry).ok (Contained.refl directory machine) hentry
      obtain ⟨dests, hresolved, hpaths, hunpacked⟩ := ih (hplain.of_contained hmiddle) h
      -- only sources are written, everything else is passed over
      rcases extractEntry_ok hplain hentry with ⟨hskip, rfl, rfl⟩ |
        ⟨hsource, dest, bytes, rfl, hextraction⟩
      · refine ⟨dests, .skip hskip hresolved, by rw [hpaths]; simp, hunpacked.names, ?_,
          hunpacked.kept, ?_⟩
        · rw [sources_skip hskip]
          exact hunpacked.lexical
        · rw [sources_skip hskip]
          exact hunpacked.written
      · refine ⟨dest :: dests, .source hsource hextraction.resolves hentry hresolved, ?_,
          hunpacked.cons hinto hroot hplain hmiddle hsource hextraction⟩
        rw [hpaths, List.map_cons, List.append_cons]
        rfl

/-- The conditions on the destination: a directory below the root, without links. -/
structure Destination (files : Files Bytes) (into directory : Path) : Prop extends
    Plain files directory where
  names : ∀ name ∈ into, Path.IsName name
  canonical : canonicalize files into = .ok directory
  root : directory ≠ []

/-- **No source is lost or repeated** exactly when no two sources resolve to one path; without
symbolic links, exactly when no two names lead to one path on paper. -/
theorem every_source_once_iff (system : Unpacking) (sourceJars : List String)
    (into directory : Path) (machine after : Machine) (paths : List String)
    (hinto : Destination machine.files into directory)
    (hreturns : run (extractSourceJars system sourceJars into) machine = (.ok paths, after)) :
    (SourcesOnce (sources (items system sourceJars)) paths after ↔
      ∃ dests, Resolved system into directory machine (items system sourceJars) dests ∧
        dests.Nodup) ∧
    (machine.files.NoLinks [] →
      (SourcesOnce (sources (items system sourceJars)) paths after ↔
        ((sources (items system sourceJars)).map fun entry =>
          Path.normalize (into ++ Path.names entry.name)).Nodup)) := by
  rw [run_extractSourceJars hinto.canonical] at hreturns
  obtain ⟨dests, hresolved, hpaths, hunpacked⟩ :=
    extractItems_unpacked hinto.names hinto.root hinto.toPlain hreturns
  rw [List.nil_append] at hpaths
  -- distinct destinations are distinct files, each with the content of its entry
  have honce : SourcesOnce (sources (items system sourceJars)) paths after ↔ dests.Nodup := by
    constructor
    · intro h
      exact List.Nodup.of_map _ (hpaths ▸ h.distinct)
    · intro hnodup
      refine ⟨?_, fun entry hentry => ?_⟩
      · rw [hpaths]
        refine hnodup.map_on fun first hfirst second hsecond heq => ?_
        exact Path.toString_injective (hunpacked.names first hfirst)
          (hunpacked.names second hsecond) heq
      · obtain ⟨dest, hdest, hfile⟩ := hunpacked.written hnodup entry hentry
        exact ⟨dest, hpaths ▸ List.mem_map_of_mem hdest, hfile⟩
  refine ⟨honce.trans ⟨fun h => ⟨dests, hresolved, h⟩, ?_⟩, fun hlinks => ?_⟩
  · rintro ⟨dests', hresolved', hnodup⟩
    exact hresolved.unique hresolved' ▸ hnodup
  · rw [honce, hunpacked.lexical hlinks]

theorem sampleMachine_destination : Destination sampleMachine.files ["into"] ["into"] where
  toPlain := sampleMachine_plain
  names name hname := by
    rw [List.mem_singleton.mp hname]
    exact ⟨by decide, by decide⟩
  canonical := by decide +kernel
  root := List.cons_ne_nil _ _

theorem every_source_once_iff_sample :
    ∃ paths after, run (extractSourceJars sampleUnpacking ["a.jar"] ["into"]) sampleMachine =
        (.ok paths, after) ∧
      SourcesOnce (sources (items sampleUnpacking ["a.jar"])) paths after := by
  have houtcome : (run (extractSourceJars sampleUnpacking ["a.jar"] ["into"]) sampleMachine).1 =
      .ok ["/into/pkg/A.kt"] := by
    decide +kernel
  have hreturns := run_eq houtcome
  obtain ⟨_, hlexical⟩ := every_source_once_iff sampleUnpacking ["a.jar"] ["into"] ["into"]
    sampleMachine _ _ sampleMachine_destination hreturns
  exact ⟨_, _, hreturns, (hlexical sampleMachine_noLinks).mpr (List.nodup_singleton _)⟩

/-- Two sources at one path: it is returned twice, and the first source is lost. -/
theorem extraction_repeats_path :
    ¬ ∀ (system : Unpacking) (sourceJars : List String) (into directory : Path)
      (machine after : Machine) (paths : List String), Destination machine.files into directory →
      run (extractSourceJars system sourceJars into) machine = (.ok paths, after) →
      SourcesOnce (sources (items system sourceJars)) paths after := by
  intro h
  have houtcome : (run (extractSourceJars sampleUnpacking ["a.jar", "b.jar"] ["into"])
      sampleMachine).1 = .ok ["/into/pkg/A.kt", "/into/pkg/A.kt"] := by
    decide +kernel
  have honce := h sampleUnpacking ["a.jar", "b.jar"] ["into"] ["into"] sampleMachine _ _
    sampleMachine_destination (run_eq houtcome)
  exact absurd honce.distinct (by decide)

end RulesElide.KotlinBuilder
