import RulesElide.Library.Shell
import RulesElide.Rules.TargetGraph

/-!
# Launchers

The scripts that `build_launcher` writes where the target platform is not Windows, which gets a
batch file.  They are run by the shell of `Library/Shell.lean`.
-/

namespace RulesElide.CompileCommon

open Shell

/-- `_rlocation_path`. -/
def rlocationPath (workspaceName shortPath : String) : String :=
  if startsWith shortPath "../" then removePrefix shortPath "../"
  else workspaceName ++ "/" ++ shortPath

/-- What `build_launcher` reads, for a platform with a shell. -/
structure Program extends Context where
  workspaceName : String
  mainClass : String
  jvmFlags : List String := []
  /-- `short_path` of the file with a path. -/
  runfilesPath : String → String
  /-- The class path, in the order of its depset. -/
  entries : List String
  entries_perm : entries.Perm (distinct (toContext.outputJar.path ::
    runtimeClasspath java deps runtimeDeps ++ kotlinStdlibJars))
  hostPathSeparator_eq : hostPathSeparator = ":" ∨ hostPathSeparator = ";"
  /-- `is_win` is false. -/
  windows_eq : windows = false

namespace Program

variable (program : Program) (quote : String → String)

/-- The key of the file with a path. -/
def key (path : String) : String :=
  rlocationPath program.workspaceName (program.runfilesPath path)

def keys : List String :=
  program.entries.map program.key

def elideKey : String := program.key program.elideBinary

/-- The runfiles, the runfiles library aside. -/
def runfiles : List String :=
  program.outputJar.path :: program.launcher.path ::
    ((elideToolchainImpl program.toolchain).toolFiles ++ program.entries)

/-- What `_LAUNCHER_TEMPLATE_SH` has behind `runfiles_init`. -/
def script : String :=
  "cp=\"\"\n" ++
  "for entry in " ++ " ".intercalate (program.keys.map quote) ++ ";" ++ " do\n" ++
  "  abs=\"$(rlocation \"$entry\")\"\n" ++
  "  if [ -z \"$cp\" ]; then cp=\"$abs\"; else cp=\"$cp" ++ program.hostPathSeparator ++
    "$abs\"; fi\n" ++
  "done\n" ++
  "exec \"$(rlocation " ++ quote program.elideKey ++ ")\" java -- " ++
    String.join (program.jvmFlags.map fun flag => quote flag ++ " ") ++ "-cp \"$cp\" " ++
    quote program.mainClass ++ " " ++ "\"$@\"\n"

end Program

variable {program : Program} {quote : String → String} {machine : Machine} {store : Store}

/-- `"$(rlocation word)"`. -/
def rlocation (word : Word) : Piece := .output [[bareWord "rlocation", word]]

/-- The body of the loop. -/
def loopBody (separator : Char) : List Statement :=
  [.simple [bareWord "abs=" ++ [rlocation [parameter "entry"]]],
    .branch [bareWord "[", bareWord "-z", [parameter "cp"], bareWord "]"]
      [.simple [bareWord "cp=" ++ [parameter "abs"]]]
      [.simple [bareWord "cp=" ++ [parameter "cp", .char separator, parameter "abs"]]]]

/-- The words behind `exec`. -/
def execWords (program : Program) : Command :=
  [[rlocation (quotedWord program.elideKey)], bareWord "java", bareWord "--"] ++
    program.jvmFlags.map quotedWord ++
    [bareWord "-cp", [parameter "cp"], quotedWord program.mainClass, [.arguments]]

/-- The simple commands of the script. -/
def scriptCommands (program : Program) (separator : Char) : List Command :=
  [[bareWord "cp="],
    [bareWord "for", bareWord "entry", bareWord "in"] ++ program.keys.map quotedWord,
    [bareWord "do"], [bareWord "abs=" ++ [rlocation [parameter "entry"]]],
    [bareWord "if", bareWord "[", bareWord "-z", [parameter "cp"], bareWord "]"],
    [bareWord "then", bareWord "cp=" ++ [parameter "abs"]],
    [bareWord "else", bareWord "cp=" ++ [parameter "cp", .char separator, parameter "abs"]],
    [bareWord "fi"], [bareWord "done"], bareWord "exec" :: execWords program]

set_option maxRecDepth 2000 in
/-- The condition in the loop. -/
theorem lex_condition (commands : List Command) (rest : List Char) {separator : Char}
    (hcases : separator = ':' ∨ separator = ';') :
    lex (between commands)
        ("  if [ -z \"$cp\" ]; then cp=\"$abs\"; else cp=\"$cp".toList ++
          ([separator] ++ ("$abs\"; fi\n".toList ++ rest))) =
      lex (between (commands ++
        [[bareWord "if", bareWord "[", bareWord "-z", [parameter "cp"], bareWord "]"]] ++
        [[bareWord "then", bareWord "cp=" ++ [parameter "abs"]]] ++
        [[bareWord "else", bareWord "cp=" ++ [parameter "cp", .char separator, parameter "abs"]]] ++
        [[bareWord "fi"]])) rest := by
  rw [← List.append_assoc [separator], ← List.append_assoc]
  apply lex_then
  rcases hcases with rfl | rfl <;> rfl

theorem commands_script (h : Quotes quote) {separator : Char}
    (hseparator : program.hostPathSeparator = String.singleton separator)
    (hcases : separator = ':' ∨ separator = ';') :
    commands (program.script quote).toList = some (scriptCommands program separator) := by
  -- one fact for each piece of the text between two pasted values
  have hstart : lex {} "cp=\"\"\n".toList = some (between [[bareWord "cp="]]) := rfl
  have hfor : ∀ commands, lex (between commands) "for entry in ".toList =
      some (within commands [bareWord "for", bareWord "entry", bareWord "in"]) := fun _ => rfl
  have hdo : ∀ commands, lex (between commands) " do\n".toList =
      some (between (commands ++ [[bareWord "do"]])) := fun _ => rfl
  have habs : ∀ commands, lex (between commands) "  abs=\"$(rlocation \"$entry\")\"\n".toList =
      some (between (commands ++ [[bareWord "abs=" ++ [rlocation [parameter "entry"]]]])) :=
    fun _ => rfl
  have hdone : ∀ commands, lex (between commands) "done\n".toList =
      some (between (commands ++ [[bareWord "done"]])) := fun _ => rfl
  have hexec : ∀ commands, lex (between commands) "exec \"$(rlocation ".toList =
      some (substituting [bareWord "rlocation"]
        [{ commands, words := [bareWord "exec"], word := some [] }]) := fun _ => rfl
  have hjava : ∀ commands words, lex ((substituting [bareWord "rlocation"]
      [{ commands, words, word := some [] }]).extend (quotedWord program.elideKey))
        ")\" java -- ".toList = some (within commands (words ++
        [[rlocation (quotedWord program.elideKey)]] ++ [bareWord "java"] ++ [bareWord "--"])) :=
    fun _ _ => rfl
  have hcp : ∀ commands words, lex (within commands words) "-cp \"$cp\" ".toList =
      some (within commands (words ++ [bareWord "-cp"] ++ [[parameter "cp"]])) := fun _ _ => rfl
  have htext : lex {} ((program.script quote).toList ++ ['\n']) =
      some (between (scriptCommands program separator)) := by
    unfold Program.script
    simp only [String.toList_append, List.append_assoc, hseparator, String.toList_singleton,
      String.toList_join, List.flatMap_map, -String.reduceToList, -String.reduceAppend]
    rw [lex_then hstart, lex_then (hfor _), h.lex_joined _ (by simp), lex_then (hdo _),
      lex_then (habs _), lex_condition _ _ hcases, lex_then (hdone _), lex_then (hexec _),
      lex_then (h _ _ (.inl rfl)), lex_then (hjava _ _), h.lex_spaced, lex_then (hcp _ _),
      h.lex_blank, lex_arguments]
    simp [scriptCommands, execWords]
    rfl
  rw [commands, htext]
  rfl

theorem parse_script (h : Quotes quote) {separator : Char}
    (hseparator : program.hostPathSeparator = String.singleton separator)
    (hcases : separator = ':' ∨ separator = ';') :
    parse (program.script quote).toList = some
      [.simple [bareWord "cp="],
        .forIn "entry".toList (program.keys.map quotedWord) (loopBody separator),
        .simple (bareWord "exec" :: execWords program)] := by
  rw [parse, commands_script h hseparator hcases]
  rfl

/-! ## Running the script -/

/-- What `rlocation` writes for a key. -/
def located (machine : Machine) (key : String) : String :=
  (machine.output [["rlocation", key]]).1

/-- `rlocation` finds a key. -/
def locates (machine : Machine) (key : String) : Bool :=
  (machine.output [["rlocation", key]]).2

theorem expandWord_rlocation {word : Word} {key : String} {status : Option Bool}
    (hword : word ≠ [.arguments]) (h : expandWord machine store word = some (key, status)) :
    expandWord machine store [rlocation word] =
      some (located machine key, some (locates machine key)) := by
  apply expandWord_output
  rw [expandCommand_bareWord, expandCommand_cons hword h]
  rfl

/-- One round of the loop. -/
theorem run_loopBody (machine : Machine) (separator : Char) {cp : String}
    (hcp : store.value "cp" = some cp) (key : String) :
    runAll machine (loopBody separator) (store.set "entry" key) =
      if locates machine key then
        .ok (((store.set "entry" key).set "abs" (located machine key)).set "cp"
          (joinWith (String.singleton separator) cp (located machine key)))
      else .error .failed := by
  have habs : run machine (.simple [bareWord "abs=" ++ [rlocation [parameter "entry"]]])
      (store.set "entry" key) =
        if some (locates machine key) = some false then .error .failed
        else .ok ((store.set "entry" key).set "abs" (located machine key)) := by
    apply run_assignment rfl
    apply expandWord_rlocation (by simp [parameter])
    exact expandWord_parameter (Store.value_set ..)
  cases hlocates : locates machine key with
  | false =>
      rw [hlocates] at habs
      exact runAll_of_error habs
  | true =>
      rw [hlocates] at habs
      have hkept : ((store.set "entry" key).set "abs" (located machine key)).value "cp" =
          some cp := by
        rw [Store.value_set_of_ne _ (by decide), Store.value_set_of_ne _ (by decide), hcp]
      have hset : ((store.set "entry" key).set "abs" (located machine key)).value "abs" =
          some (located machine key) := Store.value_set ..
      rw [loopBody, runAll_of_ok habs, runAll_singleton,
        run_branch (test_empty (expandWord_parameter hkept))]
      -- the first entry has no separator in front
      by_cases hempty : cp = ""
      · rw [if_pos (by simp [hempty]), runAll_singleton, joinWith, if_pos hempty]
        exact run_assignment rfl (expandWord_parameter hset)
      · have hjoined : expandWord machine ((store.set "entry" key).set "abs" (located machine key))
            [parameter "cp", .char separator, parameter "abs"] =
              some (cp ++ String.singleton separator ++ located machine key, none) := by
          simp [expandWord, expandPiece, parameter, hkept, String.append_assoc,
            -String.append_singleton]
        rw [if_neg (by simp [hempty]), runAll_singleton, joinWith, if_neg hempty]
        exact run_assignment rfl hjoined

/-- The loop over the class path. -/
theorem run_loop (machine : Machine) (separator : Char) (keys : List String) {cp : String}
    (hcp : store.value "cp" = some cp) :
    ∃ after : Store,
      after.value "cp" =
        some ((keys.map (located machine)).foldl (joinWith (String.singleton separator)) cp) ∧
      keys.foldlM (fun store key => runAll machine (loopBody separator) (store.set "entry" key))
          store =
        if keys.all (locates machine) then .ok after else .error .failed := by
  induction keys generalizing store cp with
  | nil => exact ⟨store, hcp, rfl⟩
  | cons key keys ih =>
      obtain ⟨after, hafter, hrest⟩ := ih (Store.value_set
        ((store.set "entry" key).set "abs" (located machine key)) "cp"
        (joinWith (String.singleton separator) cp (located machine key)))
      refine ⟨after, hafter, ?_⟩
      rw [List.foldlM_cons, run_loopBody machine separator hcp key, List.all_cons]
      cases hkey : locates machine key with
      | false => rfl
      | true => exact hrest

/-- What the script starts if `rlocation` finds the class path. -/
def Program.arguments (program : Program) (machine : Machine) : List String :=
  [located machine program.elideKey, "java", "--"] ++ program.jvmFlags ++
    ["-cp", program.hostPathSeparator.intercalate (program.keys.map (located machine)),
      program.mainClass] ++ machine.arguments

theorem expandCommand_execWords {cp : String} (hcp : store.value "cp" = some cp) :
    expandCommand machine store (execWords program) =
      some ([located machine program.elideKey, "java", "--"] ++ program.jvmFlags ++
        ["-cp", cp, program.mainClass] ++ machine.arguments) := by
  have helide : ∀ words : Command,
      expandCommand machine store ([rlocation (quotedWord program.elideKey)] :: words) =
        (expandCommand machine store words).map (located machine program.elideKey :: ·) := by
    intro words
    apply expandCommand_cons (by simp [rlocation])
    exact expandWord_rlocation (map_ne_arguments (by simp) _) (expandWord_quotedWord _)
  have hparameter : ∀ words : Command, expandCommand machine store ([parameter "cp"] :: words) =
      (expandCommand machine store words).map (cp :: ·) :=
    fun words => expandCommand_cons (by simp [parameter]) (expandWord_parameter hcp)
  simp [execWords, helide, hparameter]

/-- What the script does, whatever characters are in the options and paths of the program. -/
theorem script_execs (hquote : Quotes quote)
    (hlocated : ∀ key ∈ program.keys, locates machine key = true → located machine key ≠ "") :
    ∃ after, Shell.script machine (program.script quote).toList store =
      if program.keys.all (locates machine) then .error (.exec (program.arguments machine) after)
      else .error .failed := by
  obtain ⟨separator, hseparator, hcases⟩ : ∃ separator : Char,
      program.hostPathSeparator = String.singleton separator ∧
        (separator = ':' ∨ separator = ';') := by
    rcases program.hostPathSeparator_eq with hcolon | hsemicolon
    · exact ⟨':', hcolon, .inl rfl⟩
    · exact ⟨';', hsemicolon, .inr rfl⟩
  have hcp : run machine (.simple [bareWord "cp="]) store = .ok (store.set "cp" "") := by
    have hempty : expandWord machine store [] = some ("", none) := rfl
    exact run_assignment rfl hempty
  obtain ⟨after, hafter, hloop⟩ :=
    run_loop machine separator program.keys (Store.value_set store "cp" "")
  have hfor := run_forIn machine (store.set "cp" "") "entry" program.keys (loopBody separator)
  refine ⟨after, ?_⟩
  rw [Shell.script, parse_script hquote hseparator hcases]
  dsimp only
  rw [runAll_of_ok hcp]
  -- the loop stops at the first key that the runfiles do not have
  cases hall : program.keys.all (locates machine) with
  | false =>
      rw [hloop, hall] at hfor
      exact runAll_of_error hfor
  | true =>
      -- no entry is empty, so the separator stands between any two of them
      have hentries : ∀ entry ∈ program.keys.map (located machine), entry ≠ "" := by
        intro entry hentry
        obtain ⟨key, hkey, rfl⟩ := List.mem_map.mp hentry
        exact hlocated key hkey (List.all_eq_true.mp hall key hkey)
      rw [foldl_joinWith hentries, ← hseparator] at hafter
      have hexec : run machine (.simple (bareWord "exec" :: execWords program)) after =
          .error (.exec (program.arguments machine) after) :=
        run_exec (by simp) rfl (expandCommand_execWords hafter) (by simp [Program.arguments])
      rw [hloop, hall, if_pos rfl] at hfor
      rw [runAll_of_ok hfor, runAll_singleton, hexec, if_pos rfl]

/-- `rlocation` finds the runfiles of a program. -/
def Finds (machine : Machine) (program : Program) : Prop :=
  ∀ path ∈ program.runfiles, locates machine (program.key path) = true ∧
    located machine (program.key path) ≠ ""

/-- The path of Elide that the script starts is that of a runfile. -/
theorem elideBinary_mem_runfiles (program : Program) : program.elideBinary ∈ program.runfiles := by
  rw [program.elideBinary_eq]
  apply List.mem_cons_of_mem
  apply List.mem_cons_of_mem
  exact List.mem_append_left _ binary_mem_toolFiles

/-- **A program starts as its rule says.**  With its runfiles in place, the launcher looks up
nothing else, and ends by starting Elide with the options, the whole class path and the main class
of the rule, and the arguments that it was given, whatever characters these have. -/
theorem launcher_starts (hquote : Quotes quote) (hfinds : Finds machine program) (store : Store) :
    (∃ after, Shell.script machine (program.script quote).toList store =
      .error (.exec (program.arguments machine) after)) ∧
      program.elideBinary ∈ program.runfiles ∧
      ∀ jar, jar = program.outputJar.path ∨
        jar ∈ runtimeClasspath program.java program.deps program.runtimeDeps ∨
        jar ∈ program.kotlinStdlibJars → jar ∈ program.entries := by
  have hkeys : ∀ key ∈ program.keys, locates machine key = true ∧ located machine key ≠ "" := by
    intro key hkey
    obtain ⟨path, hpath, rfl⟩ := List.mem_map.mp hkey
    apply hfinds path
    apply List.mem_cons_of_mem
    apply List.mem_cons_of_mem
    exact List.mem_append_right _ hpath
  refine ⟨?_, elideBinary_mem_runfiles program, fun jar hjar => ?_⟩
  · obtain ⟨after, hscript⟩ := @script_execs program quote machine store hquote
      fun key hkey _ => (hkeys key hkey).2
    refine ⟨after, hscript.trans (if_pos ?_)⟩
    exact List.all_eq_true.mpr fun key hkey => (hkeys key hkey).1
  · rw [program.entries_perm.mem_iff, mem_distinct]
    simpa [or_assoc] using hjar

/-! ## A sample program -/

/-- The sample program, with values that a shell would not leave alone. -/
def launchedProgram : Program where
  toContext := reportingContext
  workspaceName := "_main"
  mainClass := "app.Main$Companion"
  jvmFlags := ["-Dgreeting=it's $HOME"]
  runfilesPath path :=
    if path = "tools/elide" then "../elide/bin/elide" else removePrefix path "bazel-out/bin/"
  entries := distinct (reportingContext.outputJar.path ::
    runtimeClasspath reportingContext.java reportingContext.deps reportingContext.runtimeDeps ++
      reportingContext.kotlinStdlibJars)
  entries_perm := .refl _
  hostPathSeparator_eq := by decide +kernel
  windows_eq := rfl

def sampleMachine : Machine where
  arguments := ["--port", "80 80"]
  output
    | [["rlocation", key]] => ("/runfiles/" ++ key, true)
    | _ => ("", false)
  isDirectory _ := false

theorem launcher_starts_sample :
    ∃ after, Shell.script sampleMachine (launchedProgram.script singleQuote).toList
        { value := fun _ => none } =
      .error (.exec ["/runfiles/elide/bin/elide", "java", "--", "-Dgreeting=it's $HOME", "-cp",
        "/runfiles/_main/app/lib.jar:/runfiles/_main/base.jar", "app.Main$Companion", "--port",
        "80 80"] after) := by
  have hfinds : Finds sampleMachine launchedProgram := by
    intro path _
    exact ⟨rfl, by simp [located, sampleMachine]⟩
  obtain ⟨after, hscript⟩ :=
    (launcher_starts quotes_singleQuote hfinds { value := fun _ => none }).1
  have harguments : launchedProgram.arguments sampleMachine =
      ["/runfiles/elide/bin/elide", "java", "--", "-Dgreeting=it's $HOME", "-cp",
        "/runfiles/_main/app/lib.jar:/runfiles/_main/base.jar", "app.Main$Companion", "--port",
        "80 80"] := by decide +kernel
  rw [harguments] at hscript
  exact ⟨after, hscript⟩

end RulesElide.CompileCommon
