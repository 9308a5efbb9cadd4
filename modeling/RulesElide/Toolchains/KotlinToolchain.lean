import RulesElide.Rules.Launchers
import RulesElide.KotlinBuilder.WorkerLoop

/-!
# The Kotlin toolchain

The script that the Kotlin toolchain puts in front of the builder.  It is run by the shell of
`Library/Shell.lean`; `builder_configured` says with which configuration the worker then serves
its requests.
-/

namespace RulesElide.KotlinToolchain

open Shell
open CompileCommon (rlocation rlocationPath located locates expandWord_rlocation)

/-- What `_elide_kt_builder_launcher` reads.  Executables are given by their short paths. -/
structure Launcher where
  workspaceName : String
  /-- `java_home` of the runtime. -/
  javaHome : String
  shim : String
  elide : String
  fallbackBuilder : String
  nativeTools : Bool := true
  quietPluginRewrite : Bool := false
  residentWorker : Bool := false
  workerRecord : String := ""

/-- An option on a line of its own. -/
def optionLine (present : Bool) (option : String) : String :=
  if present then "  " ++ option ++ " \\\n" else ""

namespace Launcher

variable (launcher : Launcher)

/-- `jdk_java`. -/
def jdkJava : String :=
  (if startsWith launcher.javaHome "external/" then removePrefix launcher.javaHome "external/"
  else launcher.workspaceName ++ "/" ++ launcher.javaHome) ++ "/bin/java"

def key (shortPath : String) : String := rlocationPath launcher.workspaceName shortPath

/-- `record_line`. -/
def recordLine : String :=
  if launcher.workerRecord = "" then ""
  else "  --worker_record=\"" ++ launcher.workerRecord ++ "\" \\\n"

/-- What `_LAUNCHER_TEMPLATE` has behind `runfiles_init`, without comments. -/
def script : String :=
  "_elide_java_bin=\"$(rlocation " ++ launcher.jdkJava ++ ")\"\n" ++
  "export JAVA_HOME=\"$(dirname \"$(dirname \"$_elide_java_bin\")\")\"\n" ++
  "if [ -n \"$\x7bRUNFILES_DIR:-\x7d\" ]; then\n" ++
  "  export RUNFILES_DIR JAVA_RUNFILES=\"$RUNFILES_DIR\"\n" ++
  "elif [ -d \"$0.runfiles\" ]; then\n" ++
  "  export RUNFILES_DIR=\"$0.runfiles\" JAVA_RUNFILES=\"$0.runfiles\"\n" ++
  "fi\n" ++
  "if [ -n \"$\x7bRUNFILES_MANIFEST_FILE:-\x7d\" ]; then\n" ++
  "  export RUNFILES_MANIFEST_FILE\n" ++
  "fi\n" ++
  "export ELIDE_BAZEL=1\n" ++
  "exec \"$(rlocation " ++ launcher.key launcher.shim ++ ")\" \\\n" ++
  "  --elide=\"$(rlocation " ++ launcher.key launcher.elide ++ ")\" \\\n" ++
  "  --fallback_builder=\"$(rlocation " ++ launcher.key launcher.fallbackBuilder ++ ")\" \\\n" ++
  optionLine launcher.nativeTools "--native_tools" ++
  optionLine launcher.residentWorker "--resident_worker" ++ launcher.recordLine ++
  optionLine launcher.quietPluginRewrite "--quiet_plugin_rewrite" ++ "  \"$@\"\n"

/-- The keys stand in the script as they are, and the record file in double quotes. -/
structure Readable : Prop where
  jdkJava : BareText launcher.jdkJava
  shim : BareText (launcher.key launcher.shim)
  elide : BareText (launcher.key launcher.elide)
  fallbackBuilder : BareText (launcher.key launcher.fallbackBuilder)
  workerRecord : launcher.workerRecord.toList.all isPlainInDouble = true

end Launcher

variable {launcher : Launcher} {machine : Machine} {store : Store}

/-! ## Reading the script -/

/-- An option, if it is present. -/
def optionWord (present : Bool) (option : String) : Command :=
  if present then [bareWord option] else []

/-- The options behind the paths. -/
def optionWords (launcher : Launcher) : Command :=
  optionWord launcher.nativeTools "--native_tools" ++
    (optionWord launcher.residentWorker "--resident_worker" ++
      ((if launcher.workerRecord = "" then []
        else [bareWord "--worker_record=" ++ quotedWord launcher.workerRecord]) ++
        optionWord launcher.quietPluginRewrite "--quiet_plugin_rewrite"))

/-- The words behind `exec`. -/
def execWords (launcher : Launcher) : Command :=
  [[rlocation (bareWord (launcher.key launcher.shim))],
    bareWord "--elide=" ++ [rlocation (bareWord (launcher.key launcher.elide))],
    bareWord "--fallback_builder=" ++
      [rlocation (bareWord (launcher.key launcher.fallbackBuilder))]] ++
  (optionWords launcher ++ [[.arguments]])

/-- `"$(dirname "$(dirname "$_elide_java_bin")")"`. -/
def homeOfJava : Piece :=
  .output [[bareWord "dirname", [.output [[bareWord "dirname", [parameter "_elide_java_bin"]]]]]]

/-- `"$0.runfiles"`. -/
def ownRunfiles : Word :=
  parameter "0" :: ".runfiles".toList.map .char

/-- The commands between the assignment and `exec`. -/
def exportCommands : List Command :=
  [[bareWord "export", bareWord "JAVA_HOME=" ++ [homeOfJava]],
    [bareWord "if", bareWord "[", bareWord "-n", [.parameter "RUNFILES_DIR".toList true],
      bareWord "]"],
    [bareWord "then"],
    [bareWord "export", bareWord "RUNFILES_DIR",
      bareWord "JAVA_RUNFILES=" ++ [parameter "RUNFILES_DIR"]],
    [bareWord "elif", bareWord "[", bareWord "-d", ownRunfiles, bareWord "]"], [bareWord "then"],
    [bareWord "export", bareWord "RUNFILES_DIR=" ++ ownRunfiles,
      bareWord "JAVA_RUNFILES=" ++ ownRunfiles],
    [bareWord "fi"],
    [bareWord "if", bareWord "[", bareWord "-n", [.parameter "RUNFILES_MANIFEST_FILE".toList true],
      bareWord "]"],
    [bareWord "then"], [bareWord "export", bareWord "RUNFILES_MANIFEST_FILE"], [bareWord "fi"],
    [bareWord "export", bareWord "ELIDE_BAZEL=1"]]

/-- The simple commands of the script. -/
def scriptCommands (launcher : Launcher) : List Command :=
  [bareWord "_elide_java_bin=" ++ [rlocation (bareWord launcher.jdkJava)]] ::
    (exportCommands ++ [bareWord "exec" :: execWords launcher])

/-- `NAME="$0.runfiles"`. -/
theorem lex_ownRunfiles {name : String} (h : BareText name) (commands : List Command)
    (words : Command) (rest : List Char) :
    lex (within commands words) (name.toList ++ ("\"$0.runfiles\"".toList ++ rest)) =
      lex ((within commands words).extend (bareWord name ++ ownRunfiles)) rest := by
  have hopen : lex ((within commands words).extend (bareWord name)) "\"$0".toList =
      some ((within commands words).doubleQuoting (bareWord name ++ [parameter "0"])) := rfl
  have hclose : ∀ word, lex ((within commands words).doubleQuoting word) "\"".toList =
      some ((within commands words).extend word) := fun _ => rfl
  have hsplit : "\"$0.runfiles\"".toList =
      "\"$0".toList ++ (".runfiles".toList ++ "\"".toList) := rfl
  rw [lex_then (lex_bare h (.inl rfl)), hsplit, List.append_assoc, List.append_assoc,
    lex_then hopen, lex_then (lex_doubleQuoting _ _ (by decide)), lex_then (hclose _),
      List.append_assoc]
  rfl

/-- `name="$(rlocation key)"`. -/
theorem lex_rlocation {name key : String} (hname : BareText name) (hkey : BareText key)
    (commands : List Command) (words : Command) (rest : List Char) :
    lex (within commands words)
        (name.toList ++ ("\"$(rlocation ".toList ++ (key.toList ++ (")\"".toList ++ rest)))) =
      lex ((within commands words).extend (bareWord name ++ [rlocation (bareWord key)])) rest := by
  let located : State :=
    substituting [bareWord "rlocation"] [{ commands, words, word := some (bareWord name) }]
  have hopen : lex ((within commands words).extend (bareWord name)) "\"$(rlocation ".toList =
      some located := rfl
  have hclose : ∀ word, lex (located.extend word) ")\"".toList =
      some ((within commands words).extend (bareWord name ++ [rlocation word])) := fun _ => rfl
  rw [lex_then (lex_bare hname (.inl rfl)), lex_then hopen, lex_then (lex_bare hkey (.inl rfl)),
    lex_then (hclose _)]

theorem lex_home (commands : List Command) (rest : List Char) :
    lex (between commands)
        ("export JAVA_HOME=\"$(dirname \"$(dirname \"$_elide_java_bin\")\")\"\n".toList ++ rest) =
      lex (between (commands ++ [[bareWord "export", bareWord "JAVA_HOME=" ++ [homeOfJava]]]))
        rest := by
  let opened : List Frame := [{ words := [bareWord "dirname"], word := some [] },
    { commands, words := [bareWord "export"], word := some (bareWord "JAVA_HOME=") }]
  have hexport : lex (between commands) "export JAVA_HOME=".toList =
      some ((within commands [bareWord "export"]).extend (bareWord "JAVA_HOME=")) := rfl
  have hopen : lex ((within commands [bareWord "export"]).extend (bareWord "JAVA_HOME="))
      "\"$(dirname \"$(dirname ".toList = some (substituting [bareWord "dirname"] opened) := rfl
  have hjava : lex (substituting [bareWord "dirname"] opened) "\"$_elide_java_bin\"".toList =
      some ((substituting [bareWord "dirname"] opened).extend [parameter "_elide_java_bin"]) := rfl
  have hclose :
    lex ((substituting [bareWord "dirname"] opened).extend [parameter "_elide_java_bin"])
      ")\")\"\n".toList =
        some (between (commands ++ [[bareWord "export", bareWord "JAVA_HOME=" ++ [homeOfJava]]])) :=
    rfl
  have hsplit : "export JAVA_HOME=\"$(dirname \"$(dirname \"$_elide_java_bin\")\")\"\n".toList =
      "export JAVA_HOME=".toList ++ ("\"$(dirname \"$(dirname ".toList ++
        ("\"$_elide_java_bin\"".toList ++ ")\")\"\n".toList)) := rfl
  rw [hsplit]
  simp only [List.append_assoc, -String.reduceToList]
  rw [lex_then hexport, lex_then hopen, lex_then hjava, lex_then hclose]

theorem lex_runfiles (commands : List Command) (rest : List Char) :
    lex (between commands)
        ("  export RUNFILES_DIR JAVA_RUNFILES=\"$RUNFILES_DIR\"\n".toList ++ rest) =
      lex (between (commands ++ [[bareWord "export", bareWord "RUNFILES_DIR",
        bareWord "JAVA_RUNFILES=" ++ [parameter "RUNFILES_DIR"]]])) rest := by
  let words : Command := [bareWord "export", bareWord "RUNFILES_DIR"]
  have hexport : lex (between commands) "  export RUNFILES_DIR ".toList =
      some (within commands words) := rfl
  have hjava : lex (within commands words) "JAVA_RUNFILES=".toList =
      some ((within commands words).extend (bareWord "JAVA_RUNFILES=")) := rfl
  have hclose : lex ((within commands words).extend (bareWord "JAVA_RUNFILES="))
      "\"$RUNFILES_DIR\"\n".toList = some (between (commands ++
        [words ++ [bareWord "JAVA_RUNFILES=" ++ [parameter "RUNFILES_DIR"]]])) := rfl
  have hsplit : "  export RUNFILES_DIR JAVA_RUNFILES=\"$RUNFILES_DIR\"\n".toList =
      "  export RUNFILES_DIR ".toList ++ ("JAVA_RUNFILES=".toList ++
        "\"$RUNFILES_DIR\"\n".toList) := rfl
  rw [hsplit]
  simp only [List.append_assoc, -String.reduceToList]
  rw [lex_then hexport, lex_then hjava, lex_then hclose]
  rfl

theorem lex_besideRunfiles (commands : List Command) (rest : List Char) :
    lex (between commands)
        ("  export RUNFILES_DIR=\"$0.runfiles\" JAVA_RUNFILES=\"$0.runfiles\"\n".toList ++ rest) =
      lex (between (commands ++ [[bareWord "export", bareWord "RUNFILES_DIR=" ++ ownRunfiles,
        bareWord "JAVA_RUNFILES=" ++ ownRunfiles]])) rest := by
  have hexport : lex (between commands) "  export ".toList =
      some (within commands [bareWord "export"]) := rfl
  have hblank : ∀ words word, lex ((within commands words).extend word) " ".toList =
      some (within commands (words ++ [word])) := fun _ _ => rfl
  have hclose : ∀ first second : Word,
      lex ((within commands [bareWord "export", first]).extend second) "\n".toList =
        some (between (commands ++ [[bareWord "export", first, second]])) := fun _ _ => rfl
  have hsplit : "  export RUNFILES_DIR=\"$0.runfiles\" JAVA_RUNFILES=\"$0.runfiles\"\n".toList =
      "  export ".toList ++ ("RUNFILES_DIR=".toList ++ ("\"$0.runfiles\"".toList ++
        (" ".toList ++ ("JAVA_RUNFILES=".toList ++
          ("\"$0.runfiles\"".toList ++ "\n".toList))))) := rfl
  rw [hsplit]
  simp only [List.append_assoc, -String.reduceToList]
  rw [lex_then hexport, lex_ownRunfiles ⟨by decide, by decide⟩, lex_then (hblank _ _),
    lex_ownRunfiles ⟨by decide, by decide⟩]
  exact lex_then (hclose _ _)

/-- The condition of a branch on a variable. -/
theorem lex_runfilesSet (commands : List Command) (rest : List Char) :
    lex (between commands) ("if [ -n \"$\x7bRUNFILES_DIR:-\x7d\" ]; then\n".toList ++ rest) =
      lex (between (commands ++ [[bareWord "if", bareWord "[", bareWord "-n",
        [.parameter "RUNFILES_DIR".toList true], bareWord "]"]] ++ [[bareWord "then"]])) rest :=
  lex_then rfl

theorem lex_besideExists (commands : List Command) (rest : List Char) :
    lex (between commands) ("elif [ -d \"$0.runfiles\" ]; then\n".toList ++ rest) =
      lex (between (commands ++ [[bareWord "elif", bareWord "[", bareWord "-d", ownRunfiles,
        bareWord "]"]] ++ [[bareWord "then"]])) rest :=
  lex_then rfl

theorem lex_manifestSet (commands : List Command) (rest : List Char) :
    lex (between commands)
        ("if [ -n \"$\x7bRUNFILES_MANIFEST_FILE:-\x7d\" ]; then\n".toList ++ rest) =
      lex (between (commands ++ [[bareWord "if", bareWord "[", bareWord "-n",
        [.parameter "RUNFILES_MANIFEST_FILE".toList true], bareWord "]"]] ++
          [[bareWord "then"]])) rest := by
  let words : Command := [bareWord "if", bareWord "[", bareWord "-n"]
  have hopen : lex (between commands) "if [ -n ".toList = some (within commands words) := rfl
  have hname : lex (within commands words) "\"$\x7bRUNFILES_MANIFEST_FILE:-\x7d\"".toList =
      some ((within commands words).extend [.parameter "RUNFILES_MANIFEST_FILE".toList true]) := rfl
  have hclose : ∀ word, lex ((within commands words).extend word) " ]; then\n".toList =
      some (between (commands ++ [words ++ [word, bareWord "]"]] ++ [[bareWord "then"]])) :=
    fun _ => rfl
  have hsplit : "if [ -n \"$\x7bRUNFILES_MANIFEST_FILE:-\x7d\" ]; then\n".toList =
      "if [ -n ".toList ++ ("\"$\x7bRUNFILES_MANIFEST_FILE:-\x7d\"".toList ++
        " ]; then\n".toList) := rfl
  rw [hsplit]
  simp only [List.append_assoc, -String.reduceToList]
  rw [lex_then hopen, lex_then hname, lex_then (hclose _), List.append_assoc]
  rfl

theorem lex_indent (commands : List Command) (words : Command) (rest : List Char) :
    lex (within commands words) ("  ".toList ++ rest) = lex (within commands words) rest := by
  have hblanks : lex (within commands words) "  ".toList =
      some (within commands (words ++ [] ++ [])) := rfl
  rw [lex_then hblanks, List.append_nil, List.append_nil]

theorem lex_optionLine (present : Bool) {option : String} (h : BareText option)
    (commands : List Command) (words : Command) (rest : List Char) :
    lex (within commands words) ((optionLine present option).toList ++ rest) =
      lex (within commands (words ++ optionWord present option)) rest := by
  cases present with
  | false => rw [show optionWord false option = [] from rfl, List.append_nil]; rfl
  | true =>
      have hend : lex ((within commands words).extend (bareWord option)) " \\\n".toList =
          some (within commands (words ++ [bareWord option])) := rfl
      rw [show optionLine true option = "  " ++ option ++ " \\\n" from rfl, String.toList_append,
        String.toList_append, List.append_assoc, List.append_assoc, lex_indent,
        lex_then (lex_bare h (.inl rfl)), lex_then hend]
      rfl

theorem lex_recordLine (h : launcher.Readable) (commands : List Command) (words : Command)
    (rest : List Char) :
    lex (within commands words) (launcher.recordLine.toList ++ rest) =
      lex (within commands (words ++ if launcher.workerRecord = "" then []
        else [bareWord "--worker_record=" ++ quotedWord launcher.workerRecord])) rest := by
  unfold Launcher.recordLine
  split
  · rw [List.append_nil]
    rfl
  · have hrecord : BareText "--worker_record=" := ⟨by decide, by decide⟩
    have hopen : ∀ word, lex ((within commands words).extend word) "\"".toList =
        some ((within commands words).doubleQuoting word) := fun _ => rfl
    have hclose : ∀ word, lex ((within commands words).doubleQuoting word) "\" \\\n".toList =
        some (within commands (words ++ [word])) := fun _ => rfl
    have hsplit : "  --worker_record=\"".toList =
        "  ".toList ++ ("--worker_record=".toList ++ "\"".toList) := rfl
    simp only [String.toList_append, hsplit, List.append_assoc, -String.reduceToList,
      -String.reduceAppend]
    rw [lex_indent, lex_then (lex_bare hrecord (.inl rfl)), lex_then (hopen _),
      lex_then (lex_doubleQuoting _ _ h.workerRecord), lex_then (hclose _)]
    rfl

theorem lex_manifest (commands : List Command) (rest : List Char) :
    lex (between commands) ("  export RUNFILES_MANIFEST_FILE\n".toList ++ rest) =
      lex (between (commands ++ [[bareWord "export", bareWord "RUNFILES_MANIFEST_FILE"]]))
        rest := by
  have hexport : lex (between commands) "  export ".toList =
      some (within commands [bareWord "export"]) := rfl
  have hname : BareText "RUNFILES_MANIFEST_FILE" := ⟨by decide, by decide⟩
  have hclose : ∀ word, lex ((within commands [bareWord "export"]).extend word) "\n".toList =
      some (between (commands ++ [[bareWord "export", word]])) := fun _ => rfl
  have hsplit : "  export RUNFILES_MANIFEST_FILE\n".toList =
      "  export ".toList ++ ("RUNFILES_MANIFEST_FILE".toList ++ "\n".toList) := rfl
  rw [hsplit, List.append_assoc, List.append_assoc, lex_then hexport,
    lex_then (lex_bare hname (.inl rfl)), lex_then (hclose _)]

/-- The lines up to `exec`. -/
theorem lex_exports (command : Command) (rest : List Char) :
    lex (between [command])
        ("export JAVA_HOME=\"$(dirname \"$(dirname \"$_elide_java_bin\")\")\"\n".toList ++
        ("if [ -n \"$\x7bRUNFILES_DIR:-\x7d\" ]; then\n".toList ++
        ("  export RUNFILES_DIR JAVA_RUNFILES=\"$RUNFILES_DIR\"\n".toList ++
        ("elif [ -d \"$0.runfiles\" ]; then\n".toList ++
        ("  export RUNFILES_DIR=\"$0.runfiles\" JAVA_RUNFILES=\"$0.runfiles\"\n".toList ++
        ("fi\n".toList ++
        ("if [ -n \"$\x7bRUNFILES_MANIFEST_FILE:-\x7d\" ]; then\n".toList ++
        ("  export RUNFILES_MANIFEST_FILE\n".toList ++
        ("fi\n".toList ++ ("export ELIDE_BAZEL=1\n".toList ++ rest)))))))))) =
      lex (between (command :: exportCommands)) rest := by
  have hfi : ∀ commands, lex (between commands) "fi\n".toList =
      some (between (commands ++ [[bareWord "fi"]])) := fun _ => rfl
  have hbazel : ∀ commands, lex (between commands) "export ELIDE_BAZEL=1\n".toList =
      some (between (commands ++ [[bareWord "export", bareWord "ELIDE_BAZEL=1"]])) := fun _ => rfl
  rw [lex_home, lex_runfilesSet, lex_runfiles, lex_besideExists, lex_besideRunfiles,
    lex_then (hfi _), lex_manifestSet, lex_manifest, lex_then (hfi _), lex_then (hbazel _)]
  rfl

/-- The lines of `exec` up to the options. -/
theorem lex_paths (h : launcher.Readable) (commands : List Command) (rest : List Char) :
    lex (between commands) ("exec \"$(rlocation ".toList ++ ((launcher.key launcher.shim).toList ++
        (")\" \\\n".toList ++ ("  --elide=\"$(rlocation ".toList ++
        ((launcher.key launcher.elide).toList ++ (")\" \\\n".toList ++
        ("  --fallback_builder=\"$(rlocation ".toList ++
        ((launcher.key launcher.fallbackBuilder).toList ++ (")\" \\\n".toList ++ rest))))))))) =
      lex (within commands [bareWord "exec", [rlocation (bareWord (launcher.key launcher.shim))],
        bareWord "--elide=" ++ [rlocation (bareWord (launcher.key launcher.elide))],
        bareWord "--fallback_builder=" ++
          [rlocation (bareWord (launcher.key launcher.fallbackBuilder))]]) rest := by
  let opened : State := substituting [bareWord "rlocation"]
    [{ commands, words := [bareWord "exec"], word := some [] }]
  have hexec : lex (between commands) "exec \"$(rlocation ".toList = some opened := rfl
  have hshim : ∀ word, lex (opened.extend word) ")\" \\\n".toList =
      some (within commands [bareWord "exec", [rlocation word]]) := fun _ => rfl
  have hline : ∀ words word, lex ((within commands words).extend word) " \\\n".toList =
      some (within commands (words ++ [word])) := fun _ _ => rfl
  have hclose : ")\" \\\n".toList = ")\"".toList ++ " \\\n".toList := rfl
  have helide : "  --elide=\"$(rlocation ".toList =
      "  ".toList ++ ("--elide=".toList ++ "\"$(rlocation ".toList) := rfl
  have hfallback : "  --fallback_builder=\"$(rlocation ".toList =
      "  ".toList ++ ("--fallback_builder=".toList ++ "\"$(rlocation ".toList) := rfl
  rw [lex_then hexec, lex_then (lex_bare h.shim (.inl rfl)), lex_then (hshim _), helide,
    hfallback, hclose]
  simp only [List.append_assoc, -String.reduceToList]
  rw [lex_indent, lex_rlocation ⟨by decide, by decide⟩ h.elide, lex_then (hline _ _), lex_indent,
    lex_rlocation ⟨by decide, by decide⟩ h.fallbackBuilder, lex_then (hline _ _)]
  rfl

theorem commands_script (h : launcher.Readable) :
    commands launcher.script.toList = some (scriptCommands launcher) := by
  have hassign : "_elide_java_bin=\"$(rlocation ".toList =
      "_elide_java_bin=".toList ++ "\"$(rlocation ".toList := rfl
  have hclose : ")\"\n".toList = ")\"".toList ++ "\n".toList := rfl
  have hline : ∀ word, lex ((within [] []).extend word) "\n".toList = some (between [[word]]) :=
    fun _ => rfl
  have hexec : "  \"$@\"\n".toList = "  ".toList ++ "\"$@\"\n".toList := rfl
  have hstart : ({} : State) = within [] [] := rfl
  have htext : lex {} (launcher.script.toList ++ ['\n']) =
      some (between (scriptCommands launcher)) := by
    unfold Launcher.script
    simp only [String.toList_append, hassign, hclose, hexec, List.append_assoc,
      -String.reduceToList, -String.reduceAppend]
    rw [hstart, lex_rlocation ⟨by decide, by decide⟩ h.jdkJava, lex_then (hline _), lex_exports,
      lex_paths h, lex_optionLine _ ⟨by decide, by decide⟩, lex_optionLine _ ⟨by decide, by decide⟩,
      lex_recordLine h, lex_optionLine _ ⟨by decide, by decide⟩, lex_indent, lex_arguments]
    simp [scriptCommands, execWords, optionWords]
    rfl
  rw [commands, htext]
  rfl

/-- The statements between the assignment and `exec`. -/
def exportStatements : List Statement :=
  [.simple [bareWord "export", bareWord "JAVA_HOME=" ++ [homeOfJava]],
    .branch [bareWord "[", bareWord "-n", [.parameter "RUNFILES_DIR".toList true], bareWord "]"]
      [.simple [bareWord "export", bareWord "RUNFILES_DIR",
        bareWord "JAVA_RUNFILES=" ++ [parameter "RUNFILES_DIR"]]]
      [.branch [bareWord "[", bareWord "-d", ownRunfiles, bareWord "]"]
        [.simple [bareWord "export", bareWord "RUNFILES_DIR=" ++ ownRunfiles,
          bareWord "JAVA_RUNFILES=" ++ ownRunfiles]] []],
    .branch [bareWord "[", bareWord "-n", [.parameter "RUNFILES_MANIFEST_FILE".toList true],
        bareWord "]"]
      [.simple [bareWord "export", bareWord "RUNFILES_MANIFEST_FILE"]] [],
    .simple [bareWord "export", bareWord "ELIDE_BAZEL=1"]]

theorem parse_script (h : launcher.Readable) :
    parse launcher.script.toList = some
      (.simple [bareWord "_elide_java_bin=" ++ [rlocation (bareWord launcher.jdkJava)]] ::
        (exportStatements ++ [.simple (bareWord "exec" :: execWords launcher)])) := by
  rw [parse, commands_script h]
  rfl

/-! ## Running the script -/

/-- The home of a Java launcher. -/
def homeOf (machine : Machine) (java : String) : String :=
  (machine.output [["dirname", (machine.output [["dirname", java]]).1]]).1

/-- The runfiles that the script finds: those that are given, or those beside it. -/
def runfilesOf (machine : Machine) (store : Store) (self : String) : Option String :=
  let given := (store.value "RUNFILES_DIR").getD ""
  if given ≠ "" then some given
  else if machine.isDirectory (self ++ ".runfiles") then some (self ++ ".runfiles")
  else none

theorem expandWord_orEmpty (name : String) :
    expandWord machine store [.parameter name.toList true] =
      some ((store.value name).getD "", none) := by
  simp [expandWord, expandPiece]

theorem expandWord_ownRunfiles {self : String} (h : store.value "0" = some self) :
    expandWord machine store ownRunfiles = some (self ++ ".runfiles", none) := by
  have hend : expandWord machine store (".runfiles".toList.map .char) = some (".runfiles", none) :=
    expandWord_quotedWord ".runfiles"
  have hself : expandPiece machine store (parameter "0") = some (self, none) := by
    simp [expandPiece, parameter, h]
  rw [ownRunfiles, expandWord, hself, hend]
  rfl

theorem run_home {java : String} (h : store.value "_elide_java_bin" = some java) :
    run machine (.simple [bareWord "export", bareWord "JAVA_HOME=" ++ [homeOfJava]]) store =
      .ok (store.publish "JAVA_HOME" (some (homeOf machine java))) := by
  have hvalue : expandWord machine store [homeOfJava] = some (homeOf machine java,
      some (machine.output [["dirname", (machine.output [["dirname", java]]).1]]).2) := by
    have hjava : expandCommand machine store [bareWord "dirname", [parameter "_elide_java_bin"]] =
        some ["dirname", java] := by
      rw [expandCommand_bareWord, expandCommand_cons (by simp [parameter]) (expandWord_parameter h)]
      rfl
    have hinner := expandWord_output hjava
    apply expandWord_output
    rw [expandCommand_bareWord, expandCommand_cons (by simp) hinner]
    rfl
  have hword := exportWord_assignment
    (show assignmentFrom [] (bareWord "JAVA_HOME=" ++ [homeOfJava]) =
      some ("JAVA_HOME", [homeOfJava]) from rfl) hvalue
  have hwords : [bareWord "JAVA_HOME=" ++ [homeOfJava]].mapM (exportWord machine store) =
      .ok [("JAVA_HOME", some (homeOf machine java))] := by
    rw [List.mapM_cons, hword]
    rfl
  exact run_export hwords

/-- The branch on the runfiles. -/
theorem run_runfiles {self : String} (hself : store.value "0" = some self) :
    ∃ after : Store, run machine
        (.branch [bareWord "[", bareWord "-n",
          [.parameter "RUNFILES_DIR".toList true], bareWord "]"]
          [.simple [bareWord "export", bareWord "RUNFILES_DIR",
            bareWord "JAVA_RUNFILES=" ++ [parameter "RUNFILES_DIR"]]]
          [.branch [bareWord "[", bareWord "-d", ownRunfiles, bareWord "]"]
            [.simple [bareWord "export", bareWord "RUNFILES_DIR=" ++ ownRunfiles,
              bareWord "JAVA_RUNFILES=" ++ ownRunfiles]] []]) store = .ok after ∧
      after.environment "JAVA_HOME" = store.environment "JAVA_HOME" ∧
      after.value "RUNFILES_MANIFEST_FILE" = store.value "RUNFILES_MANIFEST_FILE" ∧
      ∀ directory, runfilesOf machine store self = some directory →
        after.environment "RUNFILES_DIR" = some directory ∧
          after.environment "JAVA_RUNFILES" = some directory := by
  rw [run_branch (test_nonempty (expandWord_orEmpty "RUNFILES_DIR"))]
  by_cases hgiven : (store.value "RUNFILES_DIR").getD "" = ""
  · have hown := @expandWord_ownRunfiles machine store self hself
    rw [if_neg (by simp [hgiven]), runAll_singleton, run_branch (test_directory hown)]
    cases hdirectory : machine.isDirectory (self ++ ".runfiles") with
    | false =>
        refine ⟨store, rfl, rfl, rfl, fun directory h => ?_⟩
        simp [runfilesOf, hgiven, hdirectory] at h
    | true =>
        have hfirst := exportWord_assignment
          (show assignmentFrom [] (bareWord "RUNFILES_DIR=" ++ ownRunfiles) =
            some ("RUNFILES_DIR", ownRunfiles) from rfl) hown
        have hsecond := exportWord_assignment
          (show assignmentFrom [] (bareWord "JAVA_RUNFILES=" ++ ownRunfiles) =
            some ("JAVA_RUNFILES", ownRunfiles) from rfl) hown
        refine ⟨(store.publish "RUNFILES_DIR" (some (self ++ ".runfiles"))).publish "JAVA_RUNFILES"
          (some (self ++ ".runfiles")), ?_, ?_, ?_, fun directory h => ?_⟩
        · have hwords : [bareWord "RUNFILES_DIR=" ++ ownRunfiles,
              bareWord "JAVA_RUNFILES=" ++ ownRunfiles].mapM (exportWord machine store) =
                .ok [("RUNFILES_DIR", some (self ++ ".runfiles")),
                  ("JAVA_RUNFILES", some (self ++ ".runfiles"))] := by
            rw [List.mapM_cons, hfirst, List.mapM_cons, hsecond]
            rfl
          rw [if_pos rfl, runAll_singleton]
          exact run_export hwords
        · rw [Store.environment_publish_of_ne _ (by decide),
            Store.environment_publish_of_ne _ (by decide)]
        · rw [Store.value_publish_of_ne _ (by decide), Store.value_publish_of_ne _ (by decide)]
        · obtain rfl : self ++ ".runfiles" = directory := by
            simpa [runfilesOf, hgiven, hdirectory] using h
          exact ⟨by rw [Store.environment_publish_of_ne _ (by decide), Store.environment_publish],
            Store.environment_publish ..⟩
  · obtain ⟨given, hvalue⟩ : ∃ given, store.value "RUNFILES_DIR" = some given := by
      cases hvalue : store.value "RUNFILES_DIR" with
      | none => exact absurd (by rw [hvalue]; rfl) hgiven
      | some given => exact ⟨given, rfl⟩
    have hname : exportWord machine store (bareWord "RUNFILES_DIR") = .ok ("RUNFILES_DIR", none) :=
      exportWord_name rfl
    have hgivenValue : expandWord machine store [parameter "RUNFILES_DIR"] = some (given, none) :=
      expandWord_parameter hvalue
    have hsecond := exportWord_assignment
      (show assignmentFrom [] (bareWord "JAVA_RUNFILES=" ++ [parameter "RUNFILES_DIR"]) =
        some ("JAVA_RUNFILES", [parameter "RUNFILES_DIR"]) from rfl) hgivenValue
    refine ⟨(store.publish "RUNFILES_DIR" none).publish "JAVA_RUNFILES" (some given), ?_, ?_, ?_,
      fun directory h => ?_⟩
    · have hwords : [bareWord "RUNFILES_DIR", bareWord "JAVA_RUNFILES=" ++
          [parameter "RUNFILES_DIR"]].mapM (exportWord machine store) =
            .ok [("RUNFILES_DIR", none), ("JAVA_RUNFILES", some given)] := by
        rw [List.mapM_cons, hname, List.mapM_cons, hsecond]
        rfl
      rw [if_pos (by simp [hgiven]), runAll_singleton]
      exact run_export hwords
    · rw [Store.environment_publish_of_ne _ (by decide),
        Store.environment_publish_of_ne _ (by decide)]
    · rw [Store.value_publish_of_ne _ (by decide), Store.value_publish_of_ne _ (by decide)]
    · rw [hvalue, Option.getD_some] at hgiven
      obtain rfl : given = directory := by simpa [runfilesOf, hvalue, hgiven] using h
      refine ⟨?_, Store.environment_publish ..⟩
      rw [Store.environment_publish_of_ne _ (by decide), Store.environment_publish_none, hvalue]

/-- The branch on the manifest of the runfiles. -/
theorem run_manifest :
    ∃ after : Store, run machine
        (.branch [bareWord "[", bareWord "-n", [.parameter "RUNFILES_MANIFEST_FILE".toList true],
            bareWord "]"]
          [.simple [bareWord "export", bareWord "RUNFILES_MANIFEST_FILE"]] []) store = .ok after ∧
      (∀ name, name ≠ "RUNFILES_MANIFEST_FILE" → after.environment name = store.environment name) ∧
      ∀ manifest, manifest ≠ "" → store.value "RUNFILES_MANIFEST_FILE" = some manifest →
        after.environment "RUNFILES_MANIFEST_FILE" = some manifest := by
  rw [run_branch (test_nonempty (expandWord_orEmpty "RUNFILES_MANIFEST_FILE"))]
  by_cases hgiven : (store.value "RUNFILES_MANIFEST_FILE").getD "" = ""
  · refine ⟨store, ?_, fun _ _ => rfl, fun manifest hne hvalue => ?_⟩
    · rw [if_neg (by simp [hgiven])]
      rfl
    · rw [hvalue] at hgiven
      exact absurd hgiven hne
  · have hname : exportWord machine store (bareWord "RUNFILES_MANIFEST_FILE") =
        .ok ("RUNFILES_MANIFEST_FILE", none) := exportWord_name rfl
    refine ⟨store.publish "RUNFILES_MANIFEST_FILE" none, ?_,
      fun name hne => Store.environment_publish_of_ne _ hne _, fun manifest _ hvalue => ?_⟩
    · have hwords : [bareWord "RUNFILES_MANIFEST_FILE"].mapM (exportWord machine store) =
          .ok [("RUNFILES_MANIFEST_FILE", none)] := by
        rw [List.mapM_cons, hname]
        rfl
      rw [if_pos (by simp [hgiven]), runAll_singleton]
      exact run_export hwords
    · rw [Store.environment_publish_none, hvalue]

/-- What the builder finds in its environment. -/
structure Environment (machine : Machine) (before : Store) (path java : String) (after : Store) :
    Prop where
  javaHome : after.environment "JAVA_HOME" = some (homeOf machine java)
  elideBazel : after.environment "ELIDE_BAZEL" = some "1"
  runfiles : ∀ directory, runfilesOf machine before path = some directory →
    after.environment "RUNFILES_DIR" = some directory ∧
      after.environment "JAVA_RUNFILES" = some directory
  manifest : ∀ manifest, manifest ≠ "" → before.value "RUNFILES_MANIFEST_FILE" = some manifest →
    after.environment "RUNFILES_MANIFEST_FILE" = some manifest

theorem run_exports {self java : String} (hself : store.value "0" = some self)
    (hjava : store.value "_elide_java_bin" = some java) (rest : List Statement) :
    ∃ after, runAll machine (exportStatements ++ rest) store = runAll machine rest after ∧
      Environment machine store self java after := by
  -- each statement only publishes, so what earlier ones published stays
  let home := store.publish "JAVA_HOME" (some (homeOf machine java))
  have hkept : ∀ name, name ≠ "JAVA_HOME" → home.value name = store.value name :=
    fun name hne => Store.value_publish_of_ne _ hne _
  obtain ⟨found, hfound, hjavaHome, hmanifest, hrunfiles⟩ :=
    @run_runfiles machine home self (by rw [hkept _ (by decide), hself])
  obtain ⟨listed, hlisted, henvironment, hfile⟩ := @run_manifest machine found
  have hbazel : run machine (.simple [bareWord "export", bareWord "ELIDE_BAZEL=1"]) listed =
      .ok (listed.publish "ELIDE_BAZEL" (some "1")) := by
    have hone : expandWord machine listed (bareWord "1") = some ("1", none) :=
      expandWord_bareWord "1"
    have hword := exportWord_assignment
      (show assignmentFrom [] (bareWord "ELIDE_BAZEL=1") =
        some ("ELIDE_BAZEL", bareWord "1") from rfl) hone
    have hwords : [bareWord "ELIDE_BAZEL=1"].mapM (exportWord machine listed) =
        .ok [("ELIDE_BAZEL", some "1")] := by
      rw [List.mapM_cons, hword]
      rfl
    exact run_export hwords
  refine ⟨listed.publish "ELIDE_BAZEL" (some "1"), ?_, ?_, Store.environment_publish ..,
    fun directory h => ?_, fun manifest hne hvalue => ?_⟩
  · rw [exportStatements, List.cons_append, runAll_of_ok (run_home hjava), List.cons_append,
      runAll_of_ok hfound, List.cons_append, runAll_of_ok hlisted, List.cons_append,
      runAll_of_ok hbazel, List.nil_append]
  · rw [Store.environment_publish_of_ne _ (by decide), henvironment _ (by decide), hjavaHome,
      Store.environment_publish]
  · have hsame : runfilesOf machine home self = runfilesOf machine store self := by
      rw [runfilesOf, runfilesOf, hkept _ (by decide)]
    obtain ⟨hdirectory, hjavaRunfiles⟩ := hrunfiles directory (hsame.trans h)
    rw [Store.environment_publish_of_ne _ (by decide),
      Store.environment_publish_of_ne _ (by decide), henvironment _ (by decide),
        henvironment _ (by decide)]
    exact ⟨hdirectory, hjavaRunfiles⟩
  · rw [Store.environment_publish_of_ne _ (by decide)]
    exact hfile manifest hne (by rw [hmanifest, hkept _ (by decide), hvalue])

/-! ## What the script starts -/

/-- An option, if it is present. -/
def optionText (present : Bool) (option : String) : List String :=
  if present then [option] else []

/-- The options behind the paths. -/
def optionTexts (launcher : Launcher) : List String :=
  optionText launcher.nativeTools "--native_tools" ++
    (optionText launcher.residentWorker "--resident_worker" ++
      ((if launcher.workerRecord = "" then [] else ["--worker_record=" ++ launcher.workerRecord]) ++
        optionText launcher.quietPluginRewrite "--quiet_plugin_rewrite"))

/-- The arguments of the builder. -/
def arguments (launcher : Launcher) (machine : Machine) : List String :=
  ["--elide=" ++ located machine (launcher.key launcher.elide),
    "--fallback_builder=" ++ located machine (launcher.key launcher.fallbackBuilder)] ++
      (optionTexts launcher ++ machine.arguments)

theorem expandCommand_optionWord (present : Bool) (option : String) (words : Command) :
    expandCommand machine store (optionWord present option ++ words) =
      (expandCommand machine store words).map (optionText present option ++ ·) := by
  cases present with
  | false => simp [optionWord, optionText]
  | true => simp [optionWord, optionText]

theorem expandCommand_execWords :
    expandCommand machine store (execWords launcher) =
      some (located machine (launcher.key launcher.shim) :: arguments launcher machine) := by
  have hlocated : ∀ key : String, expandWord machine store [rlocation (bareWord key)] =
      some (located machine key, some (locates machine key)) := fun key =>
    expandWord_rlocation (map_ne_arguments (by simp) _) (expandWord_bareWord key)
  have hpath : ∀ (text key : String) (words : Command),
      expandCommand machine store ((bareWord text ++ [rlocation (bareWord key)]) :: words) =
        (expandCommand machine store words).map ((text ++ located machine key) :: ·) := by
    intro text key words
    apply expandCommand_cons _ (expandWord_bareWord_append text (hlocated key))
    cases hchars : text.toList <;> simp [bareWord, hchars, rlocation]
  have hshim : ∀ words : Command,
      expandCommand machine store ([rlocation (bareWord (launcher.key launcher.shim))] :: words) =
        (expandCommand machine store words).map
          (located machine (launcher.key launcher.shim) :: ·) :=
    fun words => expandCommand_cons (by simp [rlocation]) (hlocated _)
  have hrecord : ∀ words : Command,
      expandCommand machine store ((if launcher.workerRecord = "" then []
          else [bareWord "--worker_record=" ++ quotedWord launcher.workerRecord]) ++ words) =
        (expandCommand machine store words).map ((if launcher.workerRecord = "" then []
          else ["--worker_record=" ++ launcher.workerRecord]) ++ ·) := by
    intro words
    split
    · simp
    · exact expandCommand_cons (by simp [bareWord])
        (expandWord_bareWord_append _ (expandWord_quotedWord launcher.workerRecord))
  have hoptions : expandCommand machine store (optionWords launcher ++ [[.arguments]]) =
      some (optionTexts launcher ++ machine.arguments) := by
    rw [optionWords, List.append_assoc, List.append_assoc, List.append_assoc,
      expandCommand_optionWord, expandCommand_optionWord, hrecord, expandCommand_optionWord,
        expandCommand_arguments]
    simp [optionTexts]
  rw [execWords, List.cons_append, List.cons_append, List.cons_append, List.nil_append, hshim,
    hpath, hpath, hoptions]
  rfl

/-! ## What the builder makes of it -/

/-- What the attributes of the toolchain ask for. -/
def config (launcher : Launcher) (machine : Machine) : KotlinBuilder.WorkerConfig where
  elide := located machine (launcher.key launcher.elide)
  fallback := located machine (launcher.key launcher.fallbackBuilder)
  resident := launcher.residentWorker
  record := launcher.workerRecord
  quietPluginRewrite := launcher.quietPluginRewrite
  nativeTools := launcher.nativeTools

/-- The builder takes the argument as a part of its configuration. -/
def isOwn (argument : String) : Bool :=
  startsWith argument "--elide=" || startsWith argument "--fallback_builder=" ||
    startsWith argument "--worker_record=" ||
    ["--resident_worker", "--quiet_plugin_rewrite", "--native_tools"].contains argument

open KotlinBuilder (WorkerConfig splitArgument splitConfig)

variable {settings : WorkerConfig} {rest : List String}

theorem startsWith_append_eq_false {first text : String} (h : startsWith first text = false)
    (h' : startsWith text first = false) (second : String) :
    startsWith (first ++ second) text = false := by
  cases hstart : startsWith (first ++ second) text with
  | false => rfl
  | true =>
      rcases startsWith_of_append hstart with hfirst | htext
      · exact hfirst.symm.trans h
      · exact htext.symm.trans h'

theorem substringAfter_option {name : List Char} {option : String}
    (h : option.toList = name ++ ['=']) (hname : '=' ∉ name) (value : String) :
    substringAfter (option ++ value) '=' = value := by
  have hall : ∀ character ∈ name, (character ≠ '=' : Bool) = true := by
    intro character hmem
    exact decide_eq_true fun heq => hname (heq ▸ hmem)
  rw [substringAfter, String.toList_append, h, if_pos (by simp), List.append_assoc,
    List.dropWhile_append_of_pos hall]
  simp

theorem splitArgument_elide (value : String) :
    splitArgument (settings, rest) ("--elide=" ++ value) =
      ({ settings with elide := value }, rest) := by
  have hvalue : substringAfter ("--elide=" ++ value) '=' = value :=
    substringAfter_option (show _ = "--elide".toList ++ ['='] from rfl) (by decide) value
  rw [splitArgument, if_pos (startsWith_append _ _), hvalue]

theorem splitArgument_fallback (value : String) :
    splitArgument (settings, rest) ("--fallback_builder=" ++ value) =
      ({ settings with fallback := value }, rest) := by
  have hvalue : substringAfter ("--fallback_builder=" ++ value) '=' = value :=
    substringAfter_option (show _ = "--fallback_builder".toList ++ ['='] from rfl) (by decide) value
  have helide : startsWith ("--fallback_builder=" ++ value) "--elide=" = false :=
    startsWith_append_eq_false (by decide) (by decide) value
  rw [splitArgument, if_neg (by simp [helide]), if_pos (startsWith_append _ _), hvalue]

theorem splitArgument_record (value : String) :
    splitArgument (settings, rest) ("--worker_record=" ++ value) =
      ({ settings with record := value }, rest) := by
  have hvalue : substringAfter ("--worker_record=" ++ value) '=' = value :=
    substringAfter_option (show _ = "--worker_record".toList ++ ['='] from rfl) (by decide) value
  have helide : startsWith ("--worker_record=" ++ value) "--elide=" = false :=
    startsWith_append_eq_false (by decide) (by decide) value
  have hfallback : startsWith ("--worker_record=" ++ value) "--fallback_builder=" = false :=
    startsWith_append_eq_false (by decide) (by decide) value
  have hresident : "--worker_record=" ++ value ≠ "--resident_worker" := by
    intro heq
    have hstart := startsWith_append "--worker_record=" value
    rw [heq] at hstart
    exact absurd hstart (by decide)
  rw [splitArgument, if_neg (by simp [helide]), if_neg (by simp [hfallback]), if_neg hresident,
    if_pos (startsWith_append _ _), hvalue]

theorem splitArgument_of_not_own {argument : String} (h : isOwn argument = false) :
    splitArgument (settings, rest) argument = (settings, rest ++ [argument]) := by
  simp only [isOwn, Bool.or_eq_false_iff, List.contains_eq_mem, decide_eq_false_iff_not,
    List.mem_cons, List.not_mem_nil, or_false, not_or] at h
  obtain ⟨⟨⟨helide, hfallback⟩, hrecord⟩, hresident, hquiet, hnative⟩ := h
  rw [splitArgument, if_neg (by simp [helide]), if_neg (by simp [hfallback]), if_neg hresident,
    if_neg (by simp [hrecord]), if_neg hquiet, if_neg hnative]

/-- Other arguments are left over. -/
theorem foldl_splitArgument {arguments : List String}
    (h : ∀ argument ∈ arguments, isOwn argument = false) :
    arguments.foldl splitArgument (settings, rest) = (settings, rest ++ arguments) := by
  induction arguments generalizing rest with
  | nil => simp
  | cons argument arguments ih =>
      rw [List.foldl_cons, splitArgument_of_not_own (h argument List.mem_cons_self),
        ih fun other hother => h other (List.mem_cons_of_mem _ hother), List.append_assoc,
        List.singleton_append]

/-- The builder reads the attributes of the toolchain, and nothing else is left of them. -/
theorem splitConfig_arguments (h : ∀ argument ∈ machine.arguments, isOwn argument = false) :
    splitConfig (arguments launcher machine) = (config launcher machine, machine.arguments) := by
  -- an option changes its own field only, so they are read one by one
  have hnative : ∀ settings : WorkerConfig,
      (optionText launcher.nativeTools "--native_tools").foldl splitArgument (settings, []) =
        ({ settings with nativeTools := settings.nativeTools || launcher.nativeTools }, []) := by
    intro settings
    cases launcher.nativeTools
    · simp only [Bool.or_false]
      rfl
    · simp only [Bool.or_true]
      rfl
  have hresident : ∀ settings : WorkerConfig,
      (optionText launcher.residentWorker "--resident_worker").foldl splitArgument (settings, []) =
        ({ settings with resident := settings.resident || launcher.residentWorker }, []) := by
    intro settings
    cases launcher.residentWorker
    · simp only [Bool.or_false]
      rfl
    · simp only [Bool.or_true]
      rfl
  have hquiet : ∀ settings : WorkerConfig,
      (optionText launcher.quietPluginRewrite "--quiet_plugin_rewrite").foldl splitArgument
          (settings, []) =
        ({ settings with
          quietPluginRewrite := settings.quietPluginRewrite || launcher.quietPluginRewrite },
          []) := by
    intro settings
    cases launcher.quietPluginRewrite
    · simp only [Bool.or_false]
      rfl
    · simp only [Bool.or_true]
      rfl
  have hrecord : ∀ settings : WorkerConfig, settings.record = "" →
      (if launcher.workerRecord = "" then []
        else ["--worker_record=" ++ launcher.workerRecord]).foldl
        splitArgument (settings, []) = ({ settings with record := launcher.workerRecord }, []) := by
    intro settings hempty
    split
    · rename_i hnone
      rw [hnone, ← hempty]
      rfl
    · rw [List.foldl_cons, splitArgument_record, List.foldl_nil]
  rw [splitConfig, arguments, List.cons_append, List.cons_append, List.nil_append, List.foldl_cons,
    splitArgument_elide, List.foldl_cons, splitArgument_fallback, List.foldl_append, optionTexts,
    List.foldl_append, hnative, List.foldl_append, hresident, List.foldl_append, hrecord _ rfl,
    hquiet, foldl_splitArgument h, List.nil_append]
  simp [config]

/-- **The worker has the configuration of its toolchain.**  The launcher ends by starting the
builder, which finds its Java and its runfiles in the environment.  Unless the launcher is given
options of the builder itself, what the builder reads from the command line is what the attributes
of the toolchain ask for, and so is what it handles each request with. -/
theorem builder_configured {self : String} (h : launcher.Readable)
    (hself : store.value "0" = some self) :
    ∃ argv after, script machine launcher.script.toList store =
        (if locates machine launcher.jdkJava then
          .error (.exec (located machine (launcher.key launcher.shim) :: argv) after)
        else .error .failed) ∧
      Environment machine store self (located machine launcher.jdkJava) after ∧
      ((∀ argument ∈ machine.arguments, isOwn argument = false) →
        splitConfig argv = (config launcher machine, machine.arguments) ∧
        ∀ (startup : KotlinBuilder.Startup) (request : KotlinBuilder.WorkRequest),
          startup.argv = argv →
          (∀ argument ∈ request.arguments, isOwn argument = false) →
            startup.merged request = config launcher machine) := by
  -- the variables that the branches read are as they were
  let found := store.set "_elide_java_bin" (located machine launcher.jdkJava)
  have hfound : run machine
      (.simple [bareWord "_elide_java_bin=" ++ [rlocation (bareWord launcher.jdkJava)]]) store =
        if some (locates machine launcher.jdkJava) = some false then .error .failed
        else .ok found :=
    run_assignment rfl
      (expandWord_rlocation (map_ne_arguments (by simp) _) (expandWord_bareWord launcher.jdkJava))
  have hkept : ∀ name, name ≠ "_elide_java_bin" → found.value name = store.value name :=
    fun name hne => Store.value_set_of_ne _ hne _
  obtain ⟨after, hexports, henvironment⟩ := @run_exports machine found self
    (located machine launcher.jdkJava) (by rw [hkept _ (by decide), hself]) (Store.value_set ..)
    [.simple (bareWord "exec" :: execWords launcher)]
  have hexec : run machine (.simple (bareWord "exec" :: execWords launcher)) after =
      .error (.exec (located machine (launcher.key launcher.shim) ::
        arguments launcher machine) after) :=
    run_exec (by simp) rfl expandCommand_execWords (List.cons_ne_nil _ _)
  refine ⟨arguments launcher machine, after, ?_, ?_, fun harguments => ?_⟩
  · rw [script, parse_script h]
    dsimp only
    cases hlocates : locates machine launcher.jdkJava with
    | false =>
        rw [hlocates] at hfound
        exact runAll_of_error hfound
    | true =>
        rw [hlocates] at hfound
        rw [runAll_of_ok hfound, hexports, runAll_singleton, hexec, if_pos rfl]
  · have hsame : runfilesOf machine found self = runfilesOf machine store self := by
      rw [runfilesOf, runfilesOf, hkept _ (by decide)]
    refine ⟨henvironment.javaHome, henvironment.elideBazel, fun directory hdirectory =>
      henvironment.runfiles directory (hsame.trans hdirectory), fun manifest hne hvalue =>
        henvironment.manifest manifest hne ?_⟩
    rw [hkept _ (by decide), hvalue]
  · have hsplit := @splitConfig_arguments launcher machine harguments
    refine ⟨hsplit, fun startup request hargv hrequest => ?_⟩
    -- the request sets nothing, so it leaves what the command line has set
    have hnone : splitConfig request.arguments = ({}, [] ++ request.arguments) :=
      foldl_splitArgument hrequest
    have hrecord : KotlinBuilder.ifEmpty launcher.workerRecord "" = launcher.workerRecord := by
      rw [KotlinBuilder.ifEmpty]
      split
      · rename_i hempty
        exact hempty.symm
      · rfl
    rw [KotlinBuilder.Startup.merged, KotlinBuilder.Startup.cfg, hargv, hsplit, hnone]
    simp only [KotlinBuilder.merge, config, hrecord, Bool.or_false]
    rfl

/-! ## A sample toolchain -/

def sampleLauncher : Launcher where
  workspaceName := "_main"
  javaHome := "external/remotejdk21_linux"
  shim := "../rules_elide/elide/kotlin/builder/elide_kotlin_builder"
  elide := "../elide_linux/bin/elide"
  fallbackBuilder := "../rules_kotlin/src/main/kotlin/build"
  residentWorker := true
  workerRecord := "/tmp/work requests"

def sampleMachine : Machine where
  arguments := ["--persistent_worker"]
  output
    | [["rlocation", key]] => ("/runfiles/" ++ key, true)
    | [["dirname", path]] =>
        (if path = "/runfiles/remotejdk21_linux/bin/java" then "/runfiles/remotejdk21_linux/bin"
        else "/runfiles/remotejdk21_linux", true)
    | _ => ("", false)
  isDirectory directory := directory == "/launcher.sh.runfiles"

def sampleStore : Store where
  value name := if name = "0" then some "/launcher.sh" else none

theorem builder_configured_sample :
    ∃ argv after, script sampleMachine sampleLauncher.script.toList sampleStore =
        .error (.exec
          ("/runfiles/rules_elide/elide/kotlin/builder/elide_kotlin_builder" :: argv) after) ∧
      after.environment "JAVA_HOME" = some "/runfiles/remotejdk21_linux" ∧
      after.environment "RUNFILES_DIR" = some "/launcher.sh.runfiles" ∧
      ({ argv : KotlinBuilder.Startup }).merged ⟨["--flagfile=/work/KotlinCompile.params"], [], 1⟩ =
        { elide := "/runfiles/elide_linux/bin/elide"
          fallback := "/runfiles/rules_kotlin/src/main/kotlin/build"
          resident := true
          record := "/tmp/work requests"
          nativeTools := true } := by
  have hreadable : sampleLauncher.Readable :=
    ⟨⟨by decide, by decide⟩, ⟨by decide, by decide⟩, ⟨by decide, by decide⟩,
      ⟨by decide, by decide⟩, by decide⟩
  have harguments : ∀ argument ∈ sampleMachine.arguments, isOwn argument = false := by decide
  obtain ⟨argv, after, hscript, henvironment, hconfigured⟩ :=
    @builder_configured sampleLauncher sampleMachine sampleStore "/launcher.sh" hreadable rfl
  obtain ⟨-, hmerged⟩ := hconfigured harguments
  have hlocates : locates sampleMachine sampleLauncher.jdkJava = true := rfl
  have hshim : located sampleMachine (sampleLauncher.key sampleLauncher.shim) =
      "/runfiles/rules_elide/elide/kotlin/builder/elide_kotlin_builder" := by decide
  have hhome : homeOf sampleMachine (located sampleMachine sampleLauncher.jdkJava) =
      "/runfiles/remotejdk21_linux" := by decide
  have hrunfiles : runfilesOf sampleMachine sampleStore "/launcher.sh" =
      some "/launcher.sh.runfiles" := by decide
  have hconfig : config sampleLauncher sampleMachine =
      { elide := "/runfiles/elide_linux/bin/elide"
        fallback := "/runfiles/rules_kotlin/src/main/kotlin/build"
        resident := true
        record := "/tmp/work requests"
        nativeTools := true } := by
    have helide : located sampleMachine (sampleLauncher.key sampleLauncher.elide) =
        "/runfiles/elide_linux/bin/elide" := by decide
    have hfallback : located sampleMachine (sampleLauncher.key sampleLauncher.fallbackBuilder) =
        "/runfiles/rules_kotlin/src/main/kotlin/build" := by decide
    rw [config, helide, hfallback]
    rfl
  rw [hlocates, if_pos rfl, hshim] at hscript
  refine ⟨argv, after, hscript, ?_, (henvironment.runfiles _ hrunfiles).1, ?_⟩
  · rw [henvironment.javaHome, hhome]
  · rw [hmerged _ _ rfl (by decide), hconfig]

end RulesElide.KotlinToolchain
