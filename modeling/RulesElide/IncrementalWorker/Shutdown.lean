import RulesElide.IncrementalWorker.RequestLoop

/-!
# Shutting down

The shutdown hook runs `close` while the request loop may be in the middle of `handle`, and
nothing keeps the two apart.  `ThreadStep` interleaves them: the loop from the request to the
written response, and `close` down to the deletion of single files.
`complete_unless_harmful` says which steps make a reported success untrue.
-/

namespace RulesElide.IncrementalWorker

open Effects Transition WorkerProtocol

/-! ## The two threads -/

/-- Where the request loop is.  `before` are the files at the time when the answer was read. -/
inductive Handling
  | idle
  /-- In the `try`, up to the compiler's answer. -/
  | compiling (request : WorkRequest) (output root : Path)
  | answered (request : WorkRequest) (output root : Path) (response : WorkResponse) (before : Disk)
  /-- The class files are listed, and some of them are copied. -/
  | packing (request : WorkRequest) (output root : Path) (response : WorkResponse) (before : Disk)
      (remaining : List Path) (entries : List (String × Bytes))
  /-- `handle` has returned or thrown, and the response is not yet written. -/
  | returned (output root : Path) (response : WorkResponse) (before : Disk)

/-- Where `close` is. -/
inductive Closing
  | notYet
  | inputClosed
  | destroyed
  | deleting (remaining : List Path)
  | done

/-- A response that was written, and the files at that time. -/
structure Written where
  output : Path
  root : Path
  response : WorkResponse
  /-- The files when the compiler's answer was read. -/
  before : Disk
  /-- The files when the response was written. -/
  disk : Disk

structure Threads where
  world : World
  handling : Handling := .idle
  closing : Closing := .notYet
  written : List Written := []

/-- Changes the files. -/
def Threads.withDisk (threads : Threads) (disk : Disk) : Threads :=
  { threads with world := { threads.world with disk } }

/-- Writes to an open file.  If it was deleted, nothing of it is seen. -/
def writeOpen (disk : Disk) (path : Path) (node : Node) : Disk :=
  if disk.lookup path = none then disk else disk.write path node

/-- A step of the request loop. -/
inductive HandleStep (toText : Throwable → String) (platform : Platform) (scratch : Path)
    (threads : Threads) : Threads → Prop
  | enter {env : Environment} {request : WorkRequest} {output : Path} {state : State}
      {entered : World}
      (hidle : threads.handling = .idle)
      (henter : run (enter platform scratch env request) threads.world =
        (.ok (output, state), entered)) :
      HandleStep toText platform scratch threads
        { threads with world := entered, handling := .compiling request output state.root }
  /-- `handle` throws before the `try`. -/
  | refuse {env : Environment} {request : WorkRequest} {thrown : Throwable} {after : World}
      {response : WorkResponse}
      (hidle : threads.handling = .idle)
      (henter : run (enter platform scratch env request) threads.world = (.error thrown, after))
      (hrespond : respond toText request (.error thrown) = .ok response) :
      HandleStep toText platform scratch threads
        { threads with world := after, handling := .returned [] [] response after.disk }
  | start {request : WorkRequest} {output root : Path}
      (hcompiling : threads.handling = .compiling request output root)
      (hnone : threads.world.compiler = none) :
      HandleStep toText platform scratch threads
        { threads with
          world := { threads.world with
            compiler := some threads.world.started
            started := threads.world.started + 1 } }
  /-- The compiler writes some of its files. -/
  | compile {request forwarded : WorkRequest} {output root : Path} (env : Environment)
      (hcompiling : threads.handling = .compiling request output root)
      (hforwarded : request.withArguments (forwardedArguments request.arguments root) =
        .ok forwarded)
      (hcompiler : threads.world.compiler ≠ none) :
      HandleStep toText platform scratch threads
        { threads with world := threads.world.compiled root env }
  /-- The compiler may have been destroyed since it answered. -/
  | receive {request forwarded : WorkRequest} {output root : Path} {response : WorkResponse}
      (hcompiling : threads.handling = .compiling request output root)
      (hforwarded : request.withArguments (forwardedArguments request.arguments root) =
        .ok forwarded)
      (hid : response.requestId = forwarded.requestId) :
      HandleStep toText platform scratch threads
        { threads with handling := .answered request output root response threads.world.disk }
  /-- The compiler has reported errors. -/
  | reject {request : WorkRequest} {output root : Path} {response : WorkResponse} {before : Disk}
      {fault : Option Fault} {after : World}
      (hanswered : threads.handling = .answered request output root response before)
      (hexit : response.exitCode ≠ 0)
      (hremove : run (remove root fault) (threads.world.drop output) = (.ok (), after)) :
      HandleStep toText platform scratch threads
        { threads with world := after, handling := .returned output root response before }
  /-- `Files.walk(classes)`, and the jar is created. -/
  | list {request : WorkRequest} {output root : Path} {response : WorkResponse} {before : Disk}
      {parent : Option Fault} {middle : World}
      (hanswered : threads.handling = .answered request output root response before)
      (hexit : response.exitCode = 0) (houtput : output ≠ [])
      (hparent : run (createDirectories output.dropLast parent) threads.world = (.ok (), middle))
      (hclasses : middle.disk.holds (root ++ ["classes"]) = true)
      (hjar : middle.disk.lookup output ≠ some .directory) :
      HandleStep toText platform scratch threads
        { threads with
          world := { middle with disk := middle.disk.write output (.jar []) }
          handling := .packing request output root response before
            (sortedFiles (middle.disk.write output (.jar [])) (root ++ ["classes"])) [] }
  | copy {request : WorkRequest} {output root file : Path} {response : WorkResponse}
      {before : Disk} {remaining : List Path} {entries : List (String × Bytes)} {node : Node}
      (hpacking : threads.handling =
        .packing request output root response before (file :: remaining) entries)
      (hname : entryName (root ++ ["classes"]) file ∉ entries.map Prod.fst)
      (hfile : threads.world.disk.lookup file = some node) :
      HandleStep toText platform scratch threads
        { threads.withDisk (writeOpen threads.world.disk output (.jar
            (entries ++ [(entryName (root ++ ["classes"]) file, node.content)]))) with
          handling := .packing request output root response before remaining
            (entries ++ [(entryName (root ++ ["classes"]) file, node.content)]) }
  | finish {request : WorkRequest} {output root : Path} {response : WorkResponse} {before : Disk}
      {entries : List (String × Bytes)}
      (hpacking : threads.handling = .packing request output root response before [] entries) :
      HandleStep toText platform scratch threads
        { threads with handling := .returned output root response before }
  /-- Something inside the `try` throws. -/
  | fail {request : WorkRequest} {output root : Path} {env : Environment}
      {thrown failure : Throwable} {response : WorkResponse} {after : World}
      (htry : threads.handling = .compiling request output root ∨
        (∃ answer before, threads.handling = .answered request output root answer before) ∨
        ∃ answer before remaining entries,
          threads.handling = .packing request output root answer before remaining entries)
      (hrecover : run (recover scratch env thrown) threads.world = (.error failure, after))
      (hrespond : respond toText request (.error failure) = .ok response) :
      HandleStep toText platform scratch threads
        { threads with world := after, handling := .returned output root response after.disk }
  | write {output root : Path} {response : WorkResponse} {before : Disk}
      (hreturned : threads.handling = .returned output root response before) :
      HandleStep toText platform scratch threads
        { threads with
          handling := .idle
          written := threads.written ++ [⟨output, root, response, before, threads.world.disk⟩] }

/-- A step of `close`. -/
inductive CloseStep (scratch : Path) (threads : Threads) : Threads → Prop
  | closeInput (hopen : threads.closing = .notYet) :
      CloseStep scratch threads { threads with closing := .inputClosed }
  /-- The compiler is given some time, and then destroyed. -/
  | destroy (hinput : threads.closing = .inputClosed) :
      CloseStep scratch threads
        { threads with
          world := { threads.world with compiler := none }
          closing := .destroyed }
  | list (hdestroyed : threads.closing = .destroyed) :
      CloseStep scratch threads
        { threads with closing := .deleting (threads.world.disk.walkReversed scratch) }
  /-- `Files.delete`, which refuses a directory that is not empty. -/
  | delete {path : Path} {remaining : List Path}
      (hdeleting : threads.closing = .deleting (path :: remaining))
      (hholds : threads.world.disk.lookup path ≠ none)
      (hempty : ∀ entry ∈ threads.world.disk.inside path, entry.1 = path) :
      CloseStep scratch threads
        { threads.withDisk (threads.world.disk.erase [path]) with closing := .deleting remaining }
  /-- All files are deleted, or one cannot be. -/
  | stop {remaining : List Path} (hdeleting : threads.closing = .deleting remaining) :
      CloseStep scratch threads { threads with closing := .done }

/-- Either thread takes a step. -/
def ThreadStep (toText : Throwable → String) (platform : Platform) (scratch : Path)
    (threads after : Threads) : Prop :=
  HandleStep toText platform scratch threads after ∨ CloseStep scratch threads after

/-! ## Complete jars -/

/-- The jar has an entry for the file, with the content it had before. -/
def HasFile (before : Disk) (classes output : Path) (entries : List (String × Bytes))
    (file : Path) : Prop :=
  entryName classes file ∈ entries.map Prod.fst ∧
    ∀ content, file ≠ output → before.lookup file = some (.file content) →
      (entryName classes file, content) ∈ entries

/-- There is a jar at the output, and it contains every regular file that was there before. -/
def JarContains (before disk : Disk) (classes output : Path) : Prop :=
  ∃ entries, disk.lookup output = some (.jar entries) ∧
    ∀ file ∈ before.filesInside classes, HasFile before classes output entries file

/-- If a success was reported, the jar is complete. -/
def Written.Complete (written : Written) : Prop :=
  written.response.exitCode = 0 →
    JarContains written.before written.disk (written.root ++ ["classes"]) written.output

/-- A step that makes a success untrue. -/
def Harmful (threads after : Threads) : Prop :=
  match threads.handling, after.handling with
  -- the class files are listed, and one is gone that was there when the answer was read
  | .answered _ _ root _ before, .packing _ _ _ _ _ _ _ =>
      ∃ file ∈ before.filesInside (root ++ ["classes"]),
        file ∉ threads.world.disk.filesInside (root ++ ["classes"])
  -- the jar is deleted before the success is reported
  | .packing _ output _ _ _ _ _, .packing _ _ _ _ _ _ _ =>
      threads.world.disk.lookup output ≠ none ∧ after.world.disk.lookup output = none
  | .returned output _ response _, .returned _ _ _ _ =>
      response.exitCode = 0 ∧
        threads.world.disk.lookup output ≠ none ∧ after.world.disk.lookup output = none
  | _, _ => False

def CarefulThreadStep (toText : Throwable → String) (platform : Platform) (scratch : Path)
    (threads after : Threads) : Prop :=
  ThreadStep toText platform scratch threads after ∧ ¬ Harmful threads after

/-- What holds of the files in each phase of the request loop. -/
def Kept (disk : Disk) : Handling → Prop
  | .answered _ _ root _ before =>
      ∀ file ∈ before.filesInside (root ++ ["classes"]), ∀ node,
        disk.lookup file = some node → before.lookup file = some node
  | .packing _ output root _ before remaining entries =>
      disk.lookup output = some (.jar entries) ∧
        ∀ file ∈ before.filesInside (root ++ ["classes"]),
          HasFile before (root ++ ["classes"]) output entries file ∨
            file ∈ remaining ∧ ∀ node, file ≠ output → disk.lookup file = some node →
              before.lookup file = some node
  | .returned output root response before =>
      response.exitCode = 0 → JarContains before disk (root ++ ["classes"]) output
  | _ => True

/-- The invariant of careful runs. -/
structure Secure (threads : Threads) : Prop where
  kept : Kept threads.world.disk threads.handling
  complete : ∀ written ∈ threads.written, written.Complete

section

variable {toText : Throwable → String} {platform : Platform} {scratch : Path}
  {threads after : Threads} {request : WorkRequest} {output root : Path}
  {response : WorkResponse} {before : Disk}

theorem exitCode_ne_zero {thrown : Throwable}
    (h : respond toText request (.error thrown) = .ok response) : response.exitCode ≠ 0 := by
  rcases respond_ok h with hok | ⟨_, _, hexit⟩
  · cases hok
  · rw [hexit]
    decide

theorem HasFile.append {classes file : Path} {entries : List (String × Bytes)}
    (h : HasFile before classes output entries file) (entry : String × Bytes) :
    HasFile before classes output (entries ++ [entry]) file := by
  refine ⟨?_, fun content hne hlookup => List.mem_append_left _ (h.2 content hne hlookup)⟩
  rw [List.map_append]
  exact List.mem_append_left _ h.1

theorem writeOpen_of_some {disk : Disk} {path : Path} {old : Node} (h : disk.lookup path = some old)
    (node : Node) : writeOpen disk path node = disk.write path node := by
  rw [writeOpen, h, if_neg (Option.some_ne_none old)]

/-- Listing the class files while all of them are there. -/
theorem kept_list {parent : Option Fault} {middle entered : World}
    (hkept : Kept entered.disk (.answered request output root response before))
    (hthere : ∀ file ∈ before.filesInside (root ++ ["classes"]),
      file ∈ entered.disk.filesInside (root ++ ["classes"]))
    (hparent : run (createDirectories output.dropLast parent) entered = (.ok (), middle)) :
    Kept (middle.disk.write output (.jar []))
      (.packing request output root response before
        (sortedFiles (middle.disk.write output (.jar [])) (root ++ ["classes"])) []) := by
  refine ⟨by rw [Disk.lookup_write, if_pos rfl], fun file hfile => Or.inr ⟨?_, ?_⟩⟩
  all_goals
    obtain ⟨node, hmem, hbegins, hregular⟩ := Disk.mem_filesInside.mp (hthere file hfile)
    have hkeeps := @createDirectories_keeps output.dropLast file parent entered node hmem
    rw [hparent] at hkeeps
  · -- the file is listed, also when it is the jar itself
    rw [sortedFiles, List.mem_insertionSort, Disk.mem_filesInside]
    by_cases houtput : file = output
    · exact ⟨.jar [], Disk.mem_write.mpr (Or.inl ⟨houtput, rfl⟩), hbegins, rfl⟩
    · exact ⟨node, Disk.mem_write.mpr (Or.inr ⟨houtput, hkeeps.1⟩), hbegins, hregular⟩
  · intro node' hne hlookup
    rw [Disk.lookup_write, if_neg hne] at hlookup
    exact hkept file hfile node' (hkeeps.2 ▸ hlookup)

theorem kept_copy {file : Path} {remaining : List Path} {entries : List (String × Bytes)}
    {node : Node} {disk : Disk}
    (hkept : Kept disk (.packing request output root response before (file :: remaining) entries))
    (hfile : disk.lookup file = some node) :
    Kept (writeOpen disk output
        (.jar (entries ++ [(entryName (root ++ ["classes"]) file, node.content)])))
      (.packing request output root response before remaining
        (entries ++ [(entryName (root ++ ["classes"]) file, node.content)])) := by
  obtain ⟨hjar, hfiles⟩ := hkept
  rw [writeOpen_of_some hjar]
  refine ⟨by rw [Disk.lookup_write, if_pos rfl], fun other hother => ?_⟩
  rcases hfiles other hother with hcopied | ⟨hremaining, hsame⟩
  · exact Or.inl (hcopied.append _)
  · rcases List.mem_cons.mp hremaining with rfl | hlater
    · -- the file that is copied now
      refine Or.inl ⟨by simp, fun content hne hlookup => ?_⟩
      obtain rfl : node = .file content :=
        Option.some.inj ((hsame node hne hfile).symm.trans hlookup)
      exact List.mem_append_right _ List.mem_cons_self
    · refine Or.inr ⟨hlater, fun node' hne hlookup => hsame node' hne ?_⟩
      rwa [Disk.lookup_write, if_neg hne] at hlookup

theorem kept_finish {entries : List (String × Bytes)} {disk : Disk}
    (hkept : Kept disk (.packing request output root response before [] entries)) :
    Kept disk (.returned output root response before) := by
  obtain ⟨hlookup, hfiles⟩ := hkept
  refine fun _ => ⟨entries, hlookup, fun file hfile => ?_⟩
  exact (hfiles file hfile).resolve_right fun hremaining => absurd hremaining.1 List.not_mem_nil

/-- A file that is still there after a deletion is as it was. -/
theorem lookup_of_erased {disk : Disk} {path file : Path} {node : Node}
    (h : (disk.erase [path]).lookup file = some node) : disk.lookup file = some node := by
  rw [Disk.lookup_erase] at h
  split at h
  · cases h
  · exact h

/-- A deletion, unless it is the jar that is deleted. -/
theorem kept_delete {path : Path} {remaining : List Path}
    (hkept : Kept threads.world.disk threads.handling)
    (hharmless : ¬ Harmful threads
      { threads.withDisk (threads.world.disk.erase [path]) with closing := .deleting remaining }) :
    Kept (threads.world.disk.erase [path]) threads.handling := by
  unfold Harmful at hharmless
  dsimp only [Threads.withDisk] at hharmless
  match hhandling : threads.handling with
  | .idle | .compiling _ _ _ => trivial
  | .answered _ _ _ _ _ =>
      rw [hhandling] at hkept
      exact fun file hfile node hlookup => hkept file hfile node (lookup_of_erased hlookup)
  | .packing _ output root _ before remaining entries =>
      rw [hhandling] at hkept hharmless
      -- a harmless deletion spares the jar; a file that is still to be copied may go
      obtain ⟨hjar, hfiles⟩ := hkept
      refine ⟨?_, fun file hfile => (hfiles file hfile).imp_right fun ⟨hremaining, hsame⟩ =>
        ⟨hremaining, fun node hne hlookup => hsame node hne (lookup_of_erased hlookup)⟩⟩
      rw [Disk.lookup_erase]
      split
      · rename_i hdeleted
        refine absurd ⟨hjar ▸ Option.some_ne_none _, ?_⟩ hharmless
        rw [Disk.lookup_erase, if_pos hdeleted]
      · exact hjar
  | .returned output root response before =>
      rw [hhandling] at hkept hharmless
      intro hexit
      -- the response counts on the jar alone, no longer on the classes
      obtain ⟨entries, hjar, hfiles⟩ := hkept hexit
      refine ⟨entries, ?_, hfiles⟩
      rw [Disk.lookup_erase]
      split
      · rename_i hdeleted
        refine absurd ⟨hexit, hjar ▸ Option.some_ne_none _, ?_⟩ hharmless
        rw [Disk.lookup_erase, if_pos hdeleted]
      · exact hjar

theorem Secure.handleStep (h : Secure threads)
    (hstep : HandleStep toText platform scratch threads after)
    (hharmless : ¬ Harmful threads after) : Secure after := by
  obtain ⟨hkept, hcomplete⟩ := h
  -- what a step keeps depends on how far the call has come
  cases hstep with
  | enter hidle henter => exact ⟨trivial, hcomplete⟩
  | refuse hidle henter hrespond =>
      exact ⟨fun hexit => absurd hexit (exitCode_ne_zero hrespond), hcomplete⟩
  | start hcompiling hnone | compile env hcompiling hforwarded hcompiler =>
      refine ⟨?_, hcomplete⟩
      rw [hcompiling]
      trivial
  | receive hcompiling hforwarded hid =>
      exact ⟨fun file hfile node hlookup => hlookup, hcomplete⟩
  | reject hanswered hexit hremove => exact ⟨fun hzero => absurd hzero hexit, hcomplete⟩
  | list hanswered hexit houtput hparent hclasses hjar =>
      rw [hanswered] at hkept
      simp only [Harmful, hanswered, not_exists, not_and, not_not] at hharmless
      exact ⟨kept_list hkept hharmless hparent, hcomplete⟩
  | copy hpacking hname hfile =>
      rw [hpacking] at hkept
      exact ⟨kept_copy hkept hfile, hcomplete⟩
  | finish hpacking =>
      rw [hpacking] at hkept
      exact ⟨kept_finish hkept, hcomplete⟩
  | fail htry hrecover hrespond =>
      exact ⟨fun hexit => absurd hexit (exitCode_ne_zero hrespond), hcomplete⟩
  | write hreturned =>
      rw [hreturned] at hkept
      refine ⟨trivial, fun written hwritten => ?_⟩
      rcases List.mem_append.mp hwritten with hearlier | hlast
      · exact hcomplete written hearlier
      · obtain rfl := List.mem_singleton.mp hlast
        exact hkept

theorem Secure.closeStep (h : Secure threads) (hstep : CloseStep scratch threads after)
    (hharmless : ¬ Harmful threads after) : Secure after := by
  cases hstep with
  | closeInput hopen => exact ⟨h.kept, h.complete⟩
  | destroy hinput => exact ⟨h.kept, h.complete⟩
  | list hdestroyed => exact ⟨h.kept, h.complete⟩
  | stop hdeleting => exact ⟨h.kept, h.complete⟩
  | delete hdeleting hholds hempty => exact ⟨kept_delete h.kept hharmless, h.complete⟩

/-! ## The loop alone -/

/-- The jar that is being written is no jar to be packed: with entries it has the content it has
without them. -/
theorem exists_lookup_write_jar {disk : Disk} {file : Path} {node : Node}
    (h : (disk.write output (.jar [])).lookup file = some node) (entries : List (String × Bytes)) :
    ∃ node', (disk.write output (.jar entries)).lookup file = some node' ∧
      node'.content = node.content := by
  rw [Disk.lookup_write] at h
  rw [Disk.lookup_write]
  split at h
  · rename_i hsame
    cases h
    exact ⟨.jar entries, if_pos hsame, rfl⟩
  · rename_i hother
    exact ⟨node, (if_neg hother).trans h, rfl⟩

/-- Copying class by class does what `packEntries` does. -/
theorem careful_of_packEntries {disk : Disk} {result : List (String × Bytes)} :
    ∀ {files : List Path} {entries : List (String × Bytes)} {threads : Threads},
      (∀ file ∈ files, ∃ node, (disk.write output (.jar [])).lookup file = some node) →
      packEntries (disk.write output (.jar [])) (root ++ ["classes"]) files entries =
        (.ok (), result) →
      threads.handling = .packing request output root response before files entries →
      threads.world.disk = disk.write output (.jar entries) →
      Relation.ReflTransGen (CarefulThreadStep toText platform scratch) threads
        { threads.withDisk (disk.write output (.jar result)) with
          handling := .packing request output root response before [] result } := by
  -- induction on the files that are still to be copied
  intro files
  induction files with
  | nil =>
      intro entries threads _ hpack hpacking hdisk
      cases hpack
      rw [Threads.withDisk, ← hdisk, ← hpacking]
  | cons file files ih =>
      intro entries threads hfiles hpack hpacking hdisk
      rw [packEntries] at hpack
      split at hpack
      · cases hpack
      · rename_i hname
        obtain ⟨node, hnode⟩ := hfiles file List.mem_cons_self
        obtain ⟨node', hfile, hcontent⟩ := exists_lookup_write_jar hnode entries
        rw [← hdisk] at hfile
        have hjar : threads.world.disk.lookup output = some (.jar entries) := by
          rw [hdisk, Disk.lookup_write, if_pos rfl]
        rw [hnode, Option.map_some, Option.getD_some, ← hcontent] at hpack
        have hcopy : HandleStep toText platform scratch threads _ :=
          HandleStep.copy hpacking hname hfile
        refine Relation.ReflTransGen.head ⟨Or.inl hcopy, ?_⟩ ?_
        · -- the copy is careful: the jar is there before and after
          simp only [Harmful, hpacking, Threads.withDisk, writeOpen_of_some hjar,
            Disk.lookup_write, if_pos, not_and]
          exact fun _ => Option.some_ne_none _
        · refine ih (fun other hother => hfiles other (List.mem_cons_of_mem _ hother)) hpack rfl ?_
          dsimp only [Threads.withDisk]
          rw [writeOpen_of_some hjar, hdisk, Disk.write_write]

/-- **Without `close` the loop packs.**  It lists and copies the class files as `pack` does, and
only the listing can be harmful. -/
theorem steps_of_pack {parent : Option Fault} {packed : World}
    (hanswered : threads.handling = .answered request output root response before)
    (hexit : response.exitCode = 0)
    (hpack : run (pack (root ++ ["classes"]) output parent none) threads.world = (.ok (), packed)) :
    ∃ listed, HandleStep toText platform scratch threads listed ∧
      (Harmful threads listed → ∃ file ∈ before.filesInside (root ++ ["classes"]),
        file ∉ threads.world.disk.filesInside (root ++ ["classes"])) ∧
      Relation.ReflTransGen (CarefulThreadStep toText platform scratch) listed
        { threads with world := packed, handling := .returned output root response before } := by
  obtain ⟨middle, entries, hpacks⟩ := exists_packRun hpack
  obtain rfl := hpacks.final
  -- the first step makes the jar and the listing, the last one closes the jar
  refine ⟨_, HandleStep.list hanswered hexit hpacks.notRoot hpacks.directories hpacks.walks
    hpacks.opens, ?_, ?_⟩
  · simp only [Harmful, hanswered]
    exact id
  · refine Relation.ReflTransGen.tail
      (careful_of_packEntries (fun file hfile => ?_) hpacks.packs rfl rfl) ⟨Or.inl ?_, id⟩
    · exact Disk.exists_lookup ((List.mem_insertionSort _).mp hfile)
    · exact HandleStep.finish rfl

/-! ## Every run -/

/-- The worker before the first request. -/
def InitialThreads (scratch : Path) (threads : Threads) : Prop :=
  ∃ world, Initial scratch world ∧ threads = { world }

theorem Secure.of_initial (h : InitialThreads scratch threads) : Secure threads := by
  obtain ⟨world, _, rfl⟩ := h
  exact ⟨trivial, nofun⟩

end

/-- **No harmful step, no incomplete jar.**  In a run of both threads in which no class file is
gone when the class files are listed, and no jar is deleted before its success is reported, every
success that is reported is true. -/
theorem complete_unless_harmful (toText : Throwable → String) (platform : Platform) (scratch : Path)
    (threads : Threads)
    (hreachable : Reachable (InitialThreads scratch) (CarefulThreadStep toText platform scratch)
      threads) :
    ∀ written ∈ threads.written, written.Complete := by
  have hsecure : Secure threads := by
    refine hreachable.invariant (fun _ => Secure.of_initial) fun state after h hstep => ?_
    exact hstep.1.elim (fun hhandle => h.handleStep hhandle hstep.2)
      fun hclose => h.closeStep hclose hstep.2
  exact hsecure.complete

/-! ## A run with and without a deletion -/

def sampleRoot : Path := ["scratch", "target-1"]

/-- The world after `enter`, with a compiler. -/
def sampleEntered : World :=
  { (run (enter samplePlatform ["scratch"] sampleEnvironment inputsRequest) sampleWorld).2 with
    compiler := some 0
    started := 1 }

/-- The compiler has written two class files and answered. -/
def sampleAnswered : Threads :=
  let world := sampleEntered.compiled sampleRoot sampleEnvironment
  { world, handling := .answered inputsRequest ["out.jar"] sampleRoot ⟨[], 0, 0, ""⟩ world.disk }

theorem sampleAnswered_reachable (toText : Throwable → String) :
    Reachable (InitialThreads ["scratch"]) (CarefulThreadStep toText samplePlatform ["scratch"])
      sampleAnswered := by
  have hstart : InitialThreads ["scratch"] { world := sampleWorld } :=
    ⟨sampleWorld, sampleWorld_initial, rfl⟩
  have henter : run (enter samplePlatform ["scratch"] sampleEnvironment inputsRequest) sampleWorld =
      (.ok (["out.jar"], ⟨signature samplePlatform inputsRequest, sampleRoot⟩), _) :=
    run_eq (by decide +kernel)
  have hsent : (inputsRequest.withArguments
      (forwardedArguments inputsRequest.arguments sampleRoot)).isOk = true := by
    decide +kernel
  match hforwarded : inputsRequest.withArguments
      (forwardedArguments inputsRequest.arguments sampleRoot) with
  | .error _ =>
      rw [hforwarded] at hsent
      cases hsent
  | .ok forwarded =>
      have hid : (0 : JavaInt) = forwarded.requestId := by
        rw [(sameButArguments hforwarded).2.requestId]
        decide +kernel
      refine Reachable.trans (.start hstart) ?_
      refine Relation.ReflTransGen.head ⟨Or.inl (HandleStep.enter rfl henter), id⟩ ?_
      refine Relation.ReflTransGen.head ⟨Or.inl (HandleStep.start rfl ?_), id⟩ ?_
      · decide +kernel
      refine Relation.ReflTransGen.head
        ⟨Or.inl (HandleStep.compile sampleEnvironment rfl hforwarded nofun), id⟩ ?_
      exact Relation.ReflTransGen.single ⟨Or.inl (HandleStep.receive rfl hforwarded hid), id⟩

/-- Nothing is deleted, and the success is true. -/
theorem complete_unless_harmful_sample :
    ∃ threads : Threads, threads.written.map (·.response.exitCode) = [0] ∧
      ∀ written ∈ threads.written, written.Complete := by
  have hpack : run (pack (sampleRoot ++ ["classes"]) ["out.jar"] none none) sampleAnswered.world =
      (.ok (), _) :=
    run_eq (by decide +kernel)
  obtain ⟨listed, hlist, hharm, hpacked⟩ : ∃ listed,
      HandleStep (fun _ => "") samplePlatform ["scratch"] sampleAnswered listed ∧ _ ∧ _ :=
    steps_of_pack rfl rfl hpack
  have hharmless : ¬ Harmful sampleAnswered listed := fun h => by
    obtain ⟨file, hfile, hgone⟩ := hharm h
    exact hgone hfile
  have hreachable := (sampleAnswered_reachable fun _ => "").trans
    (.tail (.head ⟨Or.inl hlist, hharmless⟩ hpacked) ⟨Or.inl (HandleStep.write rfl), id⟩)
  exact ⟨_, rfl, complete_unless_harmful _ samplePlatform ["scratch"] _ hreachable⟩

/-- The compiler is destroyed and a class file deleted when the answer was read already. -/
def sampleDamaged : Threads where
  world := { sampleAnswered.world with
    compiler := none
    disk := sampleAnswered.world.disk.erase [sampleRoot ++ ["classes", "B.class"]] }
  handling := sampleAnswered.handling
  closing := .deleting (sampleAnswered.world.disk.walkReversed ["scratch"]).tail

theorem sampleDamaged_of_answered (toText : Throwable → String) :
    Relation.ReflTransGen (ThreadStep toText samplePlatform ["scratch"]) sampleAnswered
      sampleDamaged := by
  have hwalk : sampleAnswered.world.disk.walkReversed ["scratch"] =
      (sampleRoot ++ ["classes", "B.class"]) ::
        (sampleAnswered.world.disk.walkReversed ["scratch"]).tail := by
    decide +kernel
  refine Relation.ReflTransGen.head (Or.inr (CloseStep.closeInput rfl)) ?_
  refine Relation.ReflTransGen.head (Or.inr (CloseStep.destroy rfl)) ?_
  refine Relation.ReflTransGen.head (Or.inr (CloseStep.list rfl)) ?_
  refine Relation.ReflTransGen.single (Or.inr (CloseStep.delete (congrArg _ hwalk) ?_ ?_))
  · decide +kernel
  · decide +kernel

/-- A success is reported, and the jar has no `B.class`. -/
theorem shutdown_reports_incomplete_jar :
    ¬ ∀ (toText : Throwable → String) (platform : Platform) (scratch : Path) (threads : Threads),
      Reachable (InitialThreads scratch) (ThreadStep toText platform scratch) threads →
        ∀ written ∈ threads.written, written.Complete := by
  intro hcomplete
  have hpack : run (pack (sampleRoot ++ ["classes"]) ["out.jar"] none none) sampleDamaged.world =
      (.ok (), _) :=
    run_eq (by decide +kernel)
  obtain ⟨listed, hlist, _, hpacked⟩ : ∃ listed,
      HandleStep (fun _ => "") samplePlatform ["scratch"] sampleDamaged listed ∧ _ ∧ _ :=
    steps_of_pack rfl rfl hpack
  have hreachable := ((sampleAnswered_reachable fun _ => "").mono fun _ _ => And.left).trans
    ((sampleDamaged_of_answered fun _ => "").trans
      (.tail (.head (Or.inl hlist) (Relation.ReflTransGen.mono (fun _ _ => And.left) _ _ hpacked))
        (Or.inl (HandleStep.write rfl))))
  obtain ⟨entries, hjar, hfiles⟩ := hcomplete _ _ _ _ hreachable _ List.mem_cons_self rfl
  have hpublished : (run (pack (sampleRoot ++ ["classes"]) ["out.jar"] none none)
      sampleDamaged.world).2.disk.lookup ["out.jar"] = some (.jar [("A.class", [202, 254])]) := by
    decide +kernel
  cases hpublished.symm.trans hjar
  have hlisted : sampleRoot ++ ["classes", "B.class"] ∈
      sampleAnswered.world.disk.filesInside (sampleRoot ++ ["classes"]) := by
    decide +kernel
  have hmissing : entryName (sampleRoot ++ ["classes"]) (sampleRoot ++ ["classes", "B.class"]) ∉
      ["A.class"] := by
    decide +kernel
  exact hmissing (hfiles _ hlisted).1

end RulesElide.IncrementalWorker
