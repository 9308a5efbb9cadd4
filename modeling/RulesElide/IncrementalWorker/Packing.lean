import RulesElide.IncrementalWorker.Sending

/-!
# What is packed

`pack` turns the regular files of the classes directory into a jar: `HoldsClasses` says which
entries it has and in what order.  `handle_end_to_end` follows one request through `handle`,
from its arguments to the jar and the response.
-/

namespace RulesElide.IncrementalWorker

open Effects Transition WorkerProtocol

/-! ## Names of entries -/

/-- The path of a class file relative to the classes directory. -/
def relativeName (classes file : Path) : String :=
  "/".intercalate (file.drop classes.length)

/-- No class file has a backslash in its name. -/
def NoBackslash (disk : Disk) (classes : Path) : Prop :=
  ∀ file ∈ disk.filesInside classes, '\\' ∉ (relativeName classes file).toList

/-- The bytes of a name, as `Path.compareTo` compares them. -/
def nameBytes (name : String) : List ℕ :=
  (getBytes name).map UInt8.toNat

theorem nameBytes_injective : Function.Injective nameBytes := by
  have htoNat : Function.Injective UInt8.toNat := fun _ _ h => UInt8.toNat_inj.mp h
  exact (List.map_injective_iff.mpr htoNat).comp getBytes_injective

theorem nameBytes_append (first second : String) :
    nameBytes (first ++ second) = nameBytes first ++ nameBytes second := by
  simp [nameBytes, getBytes, String.toByteArray_append]

theorem nameBytes_empty : nameBytes "" = [] := rfl

theorem entryName_eq {classes file : Path} (h : '\\' ∉ (relativeName classes file).toList) :
    entryName classes file = relativeName classes file := by
  have hkept : ((relativeName classes file).toList.map fun character =>
      if character = '\\' then '/' else character) = (relativeName classes file).toList := by
    refine (List.map_congr_left fun character hmem => ?_).trans (List.map_id _)
    split
    · rename_i hbackslash
      exact absurd (hbackslash ▸ hmem) h
    · rfl
  unfold entryName
  rw [← relativeName, hkept, String.ofList_toList]

theorem append_le_append {first second third : List ℕ} (h : first ++ second ≤ first ++ third) :
    second ≤ third := by
  by_contra hlt
  exact absurd h (not_le.mpr (List.append_left_lt (not_le.mp hlt)))

/-- Files of one directory are in the order of their relative names. -/
theorem nameBytes_le_of_compareToLe {classes file file' : Path} (hclasses : classes ≠ [])
    (hfile : classes <+: file) (hfile' : classes <+: file') (h : Path.compareToLe file file') :
    nameBytes (relativeName classes file) ≤ nameBytes (relativeName classes file') := by
  obtain ⟨relative, rfl⟩ := hfile
  obtain ⟨relative', rfl⟩ := hfile'
  have htext : ∀ names : Path, names ≠ [] → nameBytes (Path.toString (classes ++ names)) =
      nameBytes (Path.toString classes) ++ nameBytes ("/" ++ "/".intercalate names) := by
    intro names hnames
    rw [Path.toString, Path.toString, String.intercalate_append_of_ne_nil hclasses hnames,
      ← nameBytes_append]
    simp only [String.append_assoc]
  change nameBytes _ ≤ nameBytes _ at h
  unfold relativeName
  rw [List.drop_left, List.drop_left]
  by_cases hempty : relative = []
  · rw [hempty, String.intercalate_nil, nameBytes_empty]
    exact not_lt.mp (List.not_lt_nil _)
  · rw [htext relative hempty] at h
    by_cases hempty' : relative' = []
    · rw [hempty', List.append_nil] at h
      have hslash := append_le_append (h.trans_eq (List.append_nil _).symm)
      rw [nameBytes_append] at hslash
      exact absurd hslash (not_le.mpr (List.nil_lt_cons 47 _))
    · rw [htext relative' hempty', nameBytes_append, nameBytes_append] at h
      exact append_le_append (append_le_append h)

/-! ## `pack` -/

/-- The class files in the order in which they are packed. -/
def sortedFiles (disk : Disk) (classes : Path) : List Path :=
  (disk.filesInside classes).insertionSort Path.compareToLe

/-- The entry for a class file. -/
def entryOf (disk : Disk) (classes file : Path) : String × Bytes :=
  (entryName classes file, ((disk.lookup file).map Node.content).getD [])

/-- If no name is refused, there is one entry for each file, and no name twice. -/
theorem packEntries_spec {disk : Disk} {classes : Path} {files : List Path} :
    ∀ {entries result : List (String × Bytes)},
      packEntries disk classes files entries = (.ok (), result) → (entries.map Prod.fst).Nodup →
      result = entries ++ files.map (entryOf disk classes) ∧ (result.map Prod.fst).Nodup := by
  induction files with
  | nil =>
      intro entries result h hnodup
      cases h
      exact ⟨(List.append_nil _).symm, hnodup⟩
  | cons file files ih =>
      intro entries result h hnodup
      rw [packEntries] at h
      split at h
      · cases h
      · rename_i hfresh
        have hextended : ((entries ++ [entryOf disk classes file]).map Prod.fst).Nodup := by
          rw [List.map_append, List.map_singleton, ← List.concat_eq_append]
          exact hnodup.concat hfresh
        obtain ⟨hresult, hnames⟩ := ih h hextended
        refine ⟨?_, hnames⟩
        rw [hresult, List.append_assoc]
        rfl

/-- Once packed, the jar has one entry for each class file. -/
structure Packed (disk : Disk) (classes jar : Path) (entries : List (String × Bytes)) : Prop where
  lookup : disk.lookup jar = some (.jar entries)
  names : entries.map Prod.fst = (sortedFiles disk classes).map (entryName classes)
  nodup : (entries.map Prod.fst).Nodup
  contents : ∀ file ∈ disk.filesInside classes, ∀ content,
    disk.lookup file = some (.file content) → (entryName classes file, content) ∈ entries

/-- The entries of a jar make no difference to which files there are. -/
theorem filesInside_write (disk : Disk) (jar classes : Path)
    (entries entries' : List (String × Bytes)) :
    (disk.write jar (.jar entries')).filesInside classes =
      (disk.write jar (.jar entries)).filesInside classes := by
  have hjar : ∀ (rest : Disk) (entries : List (String × Bytes)),
      Disk.filesInside ((jar, .jar entries) :: rest) classes =
        if classes <+: jar then jar :: rest.filesInside classes else rest.filesInside classes := by
    intro rest entries
    unfold Disk.filesInside Disk.inside
    split
    · rename_i hinside
      rw [List.filter_cons_of_pos (by simpa using hinside), List.filter_cons_of_pos rfl,
        List.map_cons]
    · rename_i houtside
      rw [List.filter_cons_of_neg (by simpa using houtside)]
  rw [Disk.write, hjar, Disk.write, hjar]

/-- What `pack` has done when it returns: the files are listed once the jar is there, and no step
has thrown, so the loop went over all of them. -/
structure PackRun (classes jar : Path) (parent : Option Fault) (world middle after : World)
    (entries : List (String × Bytes)) : Prop where
  notRoot : jar ≠ []
  directories : run (createDirectories jar.dropLast parent) world = (.ok (), middle)
  walks : middle.disk.holds classes = true
  opens : middle.disk.lookup jar ≠ some .directory
  packs : packEntries (middle.disk.write jar (.jar [])) classes
    (sortedFiles (middle.disk.write jar (.jar [])) classes) [] = (.ok (), entries)
  final : after = { middle with disk := middle.disk.write jar (.jar entries) }

theorem exists_packRun {classes jar : Path} {parent fault : Option Fault} {world after : World}
    (h : run (pack classes jar parent fault) world = (.ok (), after)) :
    ∃ middle entries, PackRun classes jar parent world middle after entries := by
  -- each step of `pack` that returned leaves what the next one starts from
  unfold pack at h
  split at h
  · cases h
  · rename_i hjar
    obtain ⟨_, middle, hparent, h⟩ := run_bind_eq_ok.mp h
    obtain ⟨current, _, hget, h⟩ := run_bind_eq_ok.mp h
    cases hget
    dsimp only at h
    split at h
    · cases h
    · rename_i hopens
      simp only [not_or, not_not] at hopens
      generalize hpack : packEntries _ _ _ _ = result at h
      obtain ⟨outcome, entries⟩ := result
      obtain ⟨_, written, hset, h⟩ := run_bind_eq_ok.mp h
      cases hset
      obtain ⟨_, _, houtcome, h⟩ := run_bind_eq_ok.mp h
      rw [run_ofExcept] at houtcome
      cases houtcome
      cases fault with
      | some fault => cases h
      | none =>
          cases h
          exact ⟨middle, entries, hjar, hparent, hopens.1, hopens.2, hpack,
            by rw [Disk.write_write]⟩

theorem pack_spec {classes jar : Path} {parent fault : Option Fault} {world after : World}
    (h : run (pack classes jar parent fault) world = (.ok (), after)) :
    ∃ entries, Packed after.disk classes jar entries := by
  obtain ⟨middle, entries, hpacks⟩ := exists_packRun h
  obtain ⟨hentries, hnodup⟩ := packEntries_spec hpacks.packs List.nodup_nil
  rw [List.nil_append] at hentries
  have hdisk : after.disk = middle.disk.write jar (.jar entries) := by
    rw [hpacks.final]
  -- the listing was made when the jar was there already, with no entries in it
  have hfiles := filesInside_write middle.disk jar classes [] entries
  refine ⟨entries, ⟨by rw [hdisk, Disk.lookup_write, if_pos rfl], ?_, hnodup, ?_⟩⟩
  · rw [hentries, List.map_map, sortedFiles, sortedFiles, hdisk, hfiles]
    rfl
  · intro file hfile content hlookup
    rw [hdisk, Disk.lookup_write] at hlookup
    split at hlookup
    · cases hlookup
    · rename_i hother
      rw [hdisk, hfiles] at hfile
      rw [hentries]
      refine List.mem_map.mpr ⟨file, (List.mem_insertionSort _).mpr hfile, ?_⟩
      rw [entryOf, Disk.lookup_write, if_neg hother, hlookup]
      rfl

/-! ## The entries of the jar -/

/-- The jar holds the regular files of the classes directory: one entry for each, under its
relative name and with its content, in ascending order and whatever the order in which the
directory is listed.  The contents of jars that were packed into the directory are left out. -/
structure HoldsClasses (disk : Disk) (classes : Path) (entries : List (String × Bytes)) : Prop where
  names : ∀ listing : List Path, listing.Perm (disk.filesInside classes) →
    entries.map Prod.fst =
      (listing.insertionSort Path.compareToLe).map (relativeName classes)
  ascending : (entries.map Prod.fst).Pairwise fun first second => nameBytes first < nameBytes second
  contents : ∀ file ∈ disk.filesInside classes, ∀ content,
    disk.lookup file = some (.file content) → (relativeName classes file, content) ∈ entries

instance : Std.Total Path.compareToLe := ⟨fun _ _ => le_total _ _⟩

instance : IsTrans Path Path.compareToLe := ⟨fun _ _ _ h h' => le_trans h h'⟩

/-- A sorted listing of files is sorted by their relative names. -/
theorem pairwise_relativeName {classes : Path} {listing : List Path} (hclasses : classes ≠ [])
    (hinside : ∀ file ∈ listing, classes <+: file) :
    ((listing.insertionSort Path.compareToLe).map (relativeName classes)).Pairwise
      fun first second => nameBytes first ≤ nameBytes second := by
  rw [List.pairwise_map]
  refine (List.pairwise_insertionSort Path.compareToLe listing).imp_of_mem ?_
  intro file file' hfile hfile' h
  rw [List.mem_insertionSort] at hfile hfile'
  exact nameBytes_le_of_compareToLe hclasses (hinside file hfile) (hinside file' hfile') h

theorem Packed.holdsClasses {disk : Disk} {classes jar : Path} {entries : List (String × Bytes)}
    (h : Packed disk classes jar entries) (hclasses : classes ≠ [])
    (hnames : NoBackslash disk classes) : HoldsClasses disk classes entries := by
  -- without backslashes the names of the entries are the relative names
  have hsorted : entries.map Prod.fst = (sortedFiles disk classes).map (relativeName classes) := by
    rw [h.names]
    refine List.map_congr_left fun file hfile => entryName_eq (hnames file ?_)
    exact (List.mem_insertionSort _).mp hfile
  have hle : (entries.map Prod.fst).Pairwise
      fun first second => nameBytes first ≤ nameBytes second := by
    rw [hsorted]
    exact pairwise_relativeName hclasses fun file => Disk.prefix_of_mem_filesInside
  refine ⟨fun listing hperm => ?_, ?_, fun file hfile content hlookup => ?_⟩
  · have hle' := pairwise_relativeName hclasses fun file hfile =>
      Disk.prefix_of_mem_filesInside (hperm.mem_iff.mp hfile)
    have hpermuted : (entries.map Prod.fst).Perm
        ((listing.insertionSort Path.compareToLe).map (relativeName classes)) := by
      rw [hsorted]
      have hsame := (List.perm_insertionSort Path.compareToLe (disk.filesInside classes)).trans
        hperm.symm
      exact (hsame.trans (List.perm_insertionSort Path.compareToLe listing).symm).map _
    -- two lists in ascending order with the same elements
    exact hpermuted.eq_of_pairwise
      (fun _ _ _ _ h h' => nameBytes_injective (le_antisymm h h')) hle hle'
  · refine (hle.and h.nodup).imp fun hpair => ?_
    exact lt_of_le_of_ne hpair.1 fun heq => hpair.2 (nameBytes_injective heq)
  · rw [← entryName_eq (hnames file hfile)]
    exact h.contents file hfile content hlookup

/-! ## From the request to the response -/

section

variable {platform : Platform} {scratch output root : Path} {env : Environment}
  {request forwarded : WorkRequest} {state : State} {world after : World} {response : WorkResponse}

theorem recover_throws (failure : Throwable) (world : World) :
    (run (recover scratch env failure) world).1.isOk = false := by
  match hrun : run (recover scratch env failure) world with
  | (.error _, _) => rfl
  | (.ok response, after) =>
      unfold recover at hrun
      split at hrun
      · obtain ⟨_, _, _, hthrow⟩ := run_bind_eq_ok.mp hrun
        cases hthrow
      · cases hrun

/-- A response that `compile` returns was received, and it carries the id of the request. -/
theorem compile_ok (h : run (compile env root forwarded) world = (.ok response, after)) :
    env.send = none ∧ env.receive = .ok (some response) ∧
      response.requestId = forwarded.requestId := by
  obtain ⟨_, started, _, h⟩ := run_bind_eq_ok.mp h
  obtain ⟨_, written, _, h⟩ := run_bind_eq_ok.mp h
  obtain ⟨_, compiled, _, h⟩ := run_bind_eq_ok.mp h
  obtain ⟨_, sent, hsend, h⟩ := run_bind_eq_ok.mp h
  -- the write did not throw, as `compile` went on after it
  have hsent : env.send = none := by
    cases hsend' : env.send with
    | none => rfl
    | some thrown =>
        rw [hsend'] at hsend
        cases hsend
  obtain ⟨received, _, hreceive, h⟩ := run_bind_eq_ok.mp h
  rw [run_ofExcept] at hreceive
  cases received with
  | none => cases h
  | some received =>
      dsimp only at h
      split at h
      · rename_i hid
        cases h
        exact ⟨hsent, congrArg Prod.fst hreceive, hid⟩
      · cases h

/-- `publish` returns the response it was given, and packs the jar first if that succeeded. -/
theorem publish_ok {returned : WorkResponse}
    (h : run (publish env output state response) world = (.ok returned, after)) :
    returned = response ∧ (response.exitCode = 0 →
      ∃ entries, Packed after.disk (state.root ++ ["classes"]) output entries) := by
  obtain ⟨_, answered, _, h⟩ := run_bind_eq_ok.mp h
  -- with exit code 0 the jar is packed first, otherwise the state is dropped
  split at h
  · obtain ⟨_, packed, hpack, h⟩ := run_bind_eq_ok.mp h
    obtain ⟨_, recorded, hrecord, h⟩ := run_bind_eq_ok.mp h
    cases hrecord
    cases h
    have hspec := pack_spec hpack
    exact ⟨rfl, fun _ => hspec⟩
  · rename_i hexit
    obtain ⟨_, dropped, _, h⟩ := run_bind_eq_ok.mp h
    obtain ⟨_, removed, _, h⟩ := run_bind_eq_ok.mp h
    cases h
    exact ⟨rfl, fun hzero => absurd hzero hexit⟩

/-- A call that returns has sent the request, and returns what the compiler answered. -/
theorem call_returns (h : call platform scratch world env request = (.ok response, after)) :
    ∃ process forwarded output root, Sends platform scratch env request world process forwarded ∧
      CompilesIn platform scratch env request world output root ∧
      requestedOutput platform request.arguments = .ok output ∧
      env.send = none ∧ env.receive = .ok (some response) ∧
      response.requestId = request.requestId ∧ after.compiler = some process ∧
      (response.exitCode = 0 →
        ∃ entries, Packed after.disk (root ++ ["classes"]) output entries) := by
  have hprocess := call_process platform scratch env request world
  rw [h] at hprocess
  -- a call that returns has not failed before the `try`
  cases hprocess with
  | silent houtcome _ _ _ => cases houtcome
  | @sends output state entered process forwarded henter hforwarded _ _ hsent hreturned _ =>
      have hsends : Sends platform scratch env request world process forwarded := by
        rw [Sends, h]
        exact hsent
      have hkeys : CompilesIn platform scratch env request world output state.root :=
        (call_keys_of_enter henter).resolve_left fun hnone => hnone.2 _ hforwarded
      rw [call, handle_eq, run_bind_of_ok henter, run_tryCatch_eq_ok recover_throws] at h
      -- the three steps of `attempt` that are left: record, compile, publish
      obtain ⟨forwarded', _, hexchanged, h⟩ := run_bind_eq_ok.mp h
      obtain ⟨_, recorded, _, h⟩ := run_bind_eq_ok.mp h
      obtain ⟨answer, compiled, hcompile, h⟩ := run_bind_eq_ok.mp h
      rw [run_ofExcept] at hexchanged
      obtain rfl : forwarded' = forwarded :=
        Except.ok.inj ((congrArg Prod.fst hexchanged).symm.trans hforwarded)
      obtain ⟨hsend, hreceive, hid⟩ := compile_ok hcompile
      obtain ⟨rfl, hpacked⟩ := publish_ok h
      exact ⟨process, _, output, state.root, hsends, hkeys, enter_output henter, hsend, hreceive,
        hid.trans (sameButArguments hforwarded).2.requestId, hreturned _ rfl, hpacked⟩

theorem call_of_refused {failure : Throwable}
    (h : requestedOutput platform request.arguments = .error failure) :
    call platform scratch world env request = (.error failure, world) := by
  rw [call, handle, h]
  rfl

end

/-- **From the request to the jar.**  The compiler is sent the request with the three tokens in
front of the separator and the classes directory instead of the jar, or nothing; what it answers
is what `handle` returns; a success leaves the jar with the class files, and without one nothing
but the compiler writes a file.  Any other request is refused before anything changes. -/
theorem handle_end_to_end (platform : Platform) (scratch : Path) (world : World)
    (hreachable : Reachable (Initial scratch) (Step platform scratch) world)
    (env : Environment) (request : WorkRequest) :
    (∀ before middle value rest, Splits request.arguments before middle value rest →
      ((call platform scratch world env request).2.sent = world.sent ∨
        ∃ process forwarded, Sends platform scratch env request world process forwarded) ∧
      (∀ process forwarded, Sends platform scratch env request world process forwarded →
        SameButArguments request forwarded ∧
          ∃ output root, Path.absolute platform.workingDirectory value = .ok output ∧
            CompilesIn platform scratch env request world output root ∧
            forwarded.arguments =
              before ++
                ["--incremental", "--incremental-cache-dir", Path.toString (root ++ ["cache"])] ++
                "--" :: (middle ++ "-d" :: Path.toString (root ++ ["classes"]) :: rest)) ∧
      (∀ response after, call platform scratch world env request = (.ok response, after) →
        env.receive = .ok (some response) ∧
          (∃ process forwarded, Sends platform scratch env request world process forwarded) ∧
          (response.exitCode = 0 → ∃ output root entries,
            Path.absolute platform.workingDirectory value = .ok output ∧
              CompilesIn platform scratch env request world output root ∧
              after.disk.lookup output = some (.jar entries) ∧
              (NoBackslash after.disk (root ++ ["classes"]) →
                HoldsClasses after.disk (root ++ ["classes"]) entries))) ∧
      (Unsuccessful env request →
        Confined scratch env world.disk (call platform scratch world env request).2.disk)) ∧
    ((¬ ∃ before middle value rest, Splits request.arguments before middle value rest) →
      call platform scratch world env request =
        (.error (.illegalArgument "IC worker requires -- ... -d <output.jar>"), world)) := by
  refine ⟨fun before middle value rest hsplits => ⟨?_, ?_, ?_, ?_⟩, fun hnone => ?_⟩
  · exact call_sent platform scratch env request world
  · intro process forwarded hsends
    -- the record of the call names the root that the arguments are made of
    obtain ⟨-, -, output, root, houtput, hcompiles, hforwarded⟩ := hsends.spec
    obtain ⟨harguments, hsame⟩ := sameButArguments hforwarded
    rw [requestedOutput_of_splits hsplits platform] at houtput
    -- what is sent has the arguments that `handle` computes by index, read here by their parts
    refine ⟨hsame, output, root, houtput, hcompiles, ?_⟩
    exact harguments.trans (forwardedArguments_of_splits hsplits root)
  · intro response after hcall
    -- a call that returns has gone through `compile` and `publish`
    obtain ⟨process, forwarded, output, root, hsends, hcompiles, houtput, _, hreceive, _, _,
      hpacked⟩ := call_returns hcall
    refine ⟨hreceive, ⟨process, forwarded, hsends⟩, fun hexit => ?_⟩
    obtain ⟨entries, hpacked⟩ := hpacked hexit
    rw [requestedOutput_of_splits hsplits platform] at houtput
    exact ⟨output, root, entries, houtput, hcompiles, hpacked.lookup,
      hpacked.holdsClasses (by simp)⟩
  · exact confined_of_unsuccessful hreachable
  · -- arguments of any other form are refused before the first step
    exact call_of_refused ((splits_or_refused platform request.arguments).resolve_left hnone)

/-- The class files of `sampleEnvironment` are packed into `/out.jar`. -/
theorem handle_end_to_end_sample :
    ∃ root entries,
      (call samplePlatform ["scratch"] sampleWorld sampleEnvironment inputsRequest).2.disk.lookup
          ["out.jar"] = some (.jar entries) ∧
        (NoBackslash (call samplePlatform ["scratch"] sampleWorld sampleEnvironment
            inputsRequest).2.disk (root ++ ["classes"]) →
          HoldsClasses (call samplePlatform ["scratch"] sampleWorld sampleEnvironment
            inputsRequest).2.disk (root ++ ["classes"]) entries) := by
  have hsplits : Splits inputsRequest.arguments [] [] "out.jar" [] :=
    ⟨by decide, by simp, by simp, by simp⟩
  have hend := (handle_end_to_end samplePlatform ["scratch"] sampleWorld
    (Reachable.start sampleWorld_initial) sampleEnvironment inputsRequest).1 [] []
      "out.jar" [] hsplits
  have hcall : (call samplePlatform ["scratch"] sampleWorld sampleEnvironment inputsRequest).1 =
      .ok ⟨[], 0, 0, ""⟩ := by
    decide +kernel
  obtain ⟨_, _, hsuccess⟩ := hend.2.2.1 ⟨[], 0, 0, ""⟩ _ (by rw [← hcall])
  obtain ⟨output, root, entries, houtput, _, hlookup, hholds⟩ := hsuccess rfl
  have hpath : Path.absolute samplePlatform.workingDirectory "out.jar" = .ok ["out.jar"] := by
    decide +kernel
  obtain rfl : ["out.jar"] = output := Except.ok.inj (hpath.symm.trans houtput)
  exact ⟨root, entries, hlookup, hholds⟩

end RulesElide.IncrementalWorker
