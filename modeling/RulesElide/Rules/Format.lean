import RulesElide.Library.Shell
import RulesElide.Rules.CompileCommon

/-!
# Formatting sources

`elide_format`: a script that formats the sources of a target in the workspace, all of them in
Java or all in Kotlin.
-/

namespace RulesElide.Format

open Shell CompileCommon

/-- What `elide_format` reads. -/
structure Target where
  label : String
  srcs : List File
  /-- `short_path`. -/
  shortPath : File → String
  /-- The short path of Elide. -/
  elide : String
  /-- `allow_files` of `srcs`. -/
  allowed : ∀ file ∈ srcs, endsWith file.path ".java" ∨ endsWith file.path ".kt" ∨
    endsWith file.path ".kts"

def isJava (file : File) : Bool := endsWith file.path ".java"

def isKotlin (file : File) : Bool := endsWith file.path ".kt" || endsWith file.path ".kts"

/-- `_classify`. -/
def classify (srcs : List File) : List File × List File :=
  (srcs.filter isJava, srcs.filter isKotlin)

/-- The formatter, its option, and the files. -/
structure Tool where
  name : String
  inPlaceFlag : Option String
  targets : List File

/-- What is said outside of `bazel run`. -/
def message : String := "elide_format must be invoked via 'bazel run'."

namespace Target

variable (target : Target) (quote : String → String)

/-- What `_elide_format_impl` decides. -/
def tool : Except String Tool :=
  let (java, kotlin) := classify target.srcs
  if !java.isEmpty && !kotlin.isEmpty then
    .error ("elide_format target " ++ target.label ++
      " mixes .java and .kt/.kts sources; split into two targets.")
  else if !java.isEmpty then .ok ⟨"javaformat", some "--replace", java⟩
  else if !kotlin.isEmpty then .ok ⟨"ktfmt", none, kotlin⟩
  else .error ("elide_format target " ++ target.label ++ " has no .java/.kt/.kts sources.")

/-- `_LAUNCHER_TEMPLATE`. -/
def script (tool : Tool) : String :=
  "#!/bin/sh\n" ++
  "set -eu\n" ++
  "if [ -z \"$\x7bBUILD_WORKSPACE_DIRECTORY:-\x7d\" ]; then\n" ++
  "  echo \"" ++ message ++ "\" >&2\n" ++
  "  exit 64\n" ++
  "fi\n" ++
  "# Resolve elide to absolute path before cd-ing to the workspace, otherwise\n" ++
  "# the runfiles-relative short_path stops resolving once CWD changes.\n" ++
  "elide_abs=\"$(cd \"$(dirname " ++ quote target.elide ++ ")\" && pwd)/$(basename " ++
    quote target.elide ++ ")\"\n" ++
  "cd \"$BUILD_WORKSPACE_DIRECTORY\"\n" ++
  "exec \"$elide_abs\" " ++ tool.name ++ " -- " ++ tool.inPlaceFlag.getD "" ++ " " ++
    " ".intercalate (tool.targets.map fun file => quote (target.shortPath file)) ++ " " ++
    "\"$@\"\n"

end Target

variable {target : Target} {quote : String → String} {tool : Tool} {machine : Machine}
  {store : Store}

/-- The formatter is one of two, and gets all sources. -/
theorem tool_spec (h : target.tool = .ok tool) :
    tool.targets = target.srcs ∧ target.srcs ≠ [] ∧
      (tool.name = "javaformat" ∧ tool.inPlaceFlag = some "--replace" ∨
        tool.name = "ktfmt" ∧ tool.inPlaceFlag = none) := by
  have hall : ∀ file ∈ target.srcs, isJava file ∨ isKotlin file := by
    intro file hfile
    simpa [isJava, isKotlin] using target.allowed file hfile
  unfold Target.tool classify at h
  dsimp only at h
  -- what is not in one of the two filters is in the other
  cases hjava : target.srcs.filter isJava with
  | nil =>
      cases hkotlin : target.srcs.filter isKotlin with
      | nil =>
          rw [hjava, hkotlin] at h
          cases h
      | cons first rest =>
          rw [hjava, hkotlin] at h
          cases h
          have hsame : target.srcs.filter isKotlin = target.srcs := by
            apply List.filter_eq_self.mpr
            intro file hfile
            exact (hall file hfile).resolve_left (List.filter_eq_nil_iff.mp hjava file hfile)
          rw [hsame] at hkotlin
          exact ⟨hkotlin.symm, by rw [hkotlin]; exact List.cons_ne_nil _ _, .inr ⟨rfl, rfl⟩⟩
  | cons first rest =>
      cases hkotlin : target.srcs.filter isKotlin with
      | cons second rest =>
          rw [hjava, hkotlin] at h
          cases h
      | nil =>
          rw [hjava, hkotlin] at h
          cases h
          have hsame : target.srcs.filter isJava = target.srcs := by
            apply List.filter_eq_self.mpr
            intro file hfile
            exact (hall file hfile).resolve_right (List.filter_eq_nil_iff.mp hkotlin file hfile)
          rw [hsame] at hjava
          exact ⟨hjava.symm, by rw [hjava]; exact List.cons_ne_nil _ _, .inl ⟨rfl, rfl⟩⟩

/-! ## Reading the script -/

/-- `"$BUILD_WORKSPACE_DIRECTORY"`. -/
def workspace : Piece := parameter "BUILD_WORKSPACE_DIRECTORY"

/-- What is assigned to `elide_abs`. -/
def elideWord (target : Target) : Word :=
  [.output [[bareWord "cd", [.output [[bareWord "dirname", quotedWord target.elide]]]],
      [bareWord "pwd"]],
    .char '/', .output [[bareWord "basename", quotedWord target.elide]]]

/-- The words behind `exec`. -/
def execWords (target : Target) (tool : Tool) : Command :=
  [[parameter "elide_abs"], bareWord tool.name, bareWord "--"] ++
    (tool.inPlaceFlag.toList.map bareWord) ++
    (tool.targets.map fun file => quotedWord (target.shortPath file)) ++ [[.arguments]]

/-- The commands in front of the assignment. -/
def guardCommands : List Command :=
  [[bareWord "set", bareWord "-eu"],
    [bareWord "if", bareWord "[", bareWord "-z",
      [.parameter "BUILD_WORKSPACE_DIRECTORY".toList true], bareWord "]"],
    [bareWord "then"], [bareWord "echo", quotedWord message], [bareWord "exit", bareWord "64"],
    [bareWord "fi"]]

/-- The simple commands of the script. -/
def scriptCommands (target : Target) (tool : Tool) : List Command :=
  guardCommands ++ [[bareWord "elide_abs=" ++ elideWord target], [bareWord "cd", [workspace]],
    bareWord "exec" :: execWords target tool]

set_option maxRecDepth 2000 in
theorem lex_guard (rest : List Char) :
    lex {} ("#!/bin/sh\n".toList ++ ("set -eu\n".toList ++
      ("if [ -z \"$\x7bBUILD_WORKSPACE_DIRECTORY:-\x7d\" ]; then\n".toList ++
      ("  echo \"".toList ++ (message.toList ++ ("\" >&2\n".toList ++
      ("  exit 64\n".toList ++ ("fi\n".toList ++
      ("# Resolve elide to absolute path before cd-ing to the workspace, otherwise\n".toList ++
      ("# the runfiles-relative short_path stops resolving once CWD changes.\n".toList ++
        rest)))))))))) =
      lex (between guardCommands) rest := by
  -- the script line by line: each line leaves the lexer between two commands
  have hshebang : lex {} "#!/bin/sh\n".toList = some (between []) := rfl
  have hset : lex (between []) "set -eu\n".toList =
      some (between [[bareWord "set", bareWord "-eu"]]) := rfl
  have hif : ∀ commands, lex (between commands)
      "if [ -z \"$\x7bBUILD_WORKSPACE_DIRECTORY:-\x7d\" ]; then\n".toList =
        some (between (commands ++ [[bareWord "if", bareWord "[", bareWord "-z",
          [.parameter "BUILD_WORKSPACE_DIRECTORY".toList true], bareWord "]"]] ++
          [[bareWord "then"]])) := fun _ => rfl
  have hecho : ∀ commands, lex (between commands) "  echo \"".toList =
      some ((within commands [bareWord "echo"]).doubleQuoting []) := fun _ => rfl
  have hmessage : ∀ state : State, lex (state.doubleQuoting []) message.toList =
      some (state.doubleQuoting (quotedWord message)) :=
    fun state => lex_doubleQuoting state [] (by simp [message, isPlainInDouble])
  have hexit : ∀ commands, lex (between commands) "  exit 64\n".toList =
      some (between (commands ++ [[bareWord "exit", bareWord "64"]])) := fun _ => rfl
  have hfi : ∀ commands, lex (between commands) "fi\n".toList =
      some (between (commands ++ [[bareWord "fi"]])) := fun _ => rfl
  have hresolve : ∀ commands, lex (between commands)
      "# Resolve elide to absolute path before cd-ing to the workspace, otherwise\n".toList =
        some (between commands) := fun _ => rfl
  have hrelative : ∀ commands, lex (between commands)
      "# the runfiles-relative short_path stops resolving once CWD changes.\n".toList =
        some (between commands) := fun _ => rfl
  rw [lex_then hshebang, lex_then hset, lex_then (hif _), lex_then (hecho _), lex_then (hmessage _),
    lex_toError, lex_then (hexit _), lex_then (hfi _), lex_then (hresolve _),
    lex_then (hrelative _)]
  rfl

/-- The tool and its option, up to the files. -/
theorem lex_tool (h : target.tool = .ok tool) (commands : List Command) (rest : List Char) :
    lex (between commands) ("exec \"$elide_abs\" ".toList ++ (tool.name.toList ++
        (" -- ".toList ++ ((tool.inPlaceFlag.getD "").toList ++ (" ".toList ++ rest))))) =
      lex (within commands ([bareWord "exec", [parameter "elide_abs"], bareWord tool.name,
        bareWord "--"] ++ tool.inPlaceFlag.toList.map bareWord)) rest := by
  rw [← List.append_assoc _ _ rest, ← List.append_assoc _ _ rest, ← List.append_assoc _ _ rest,
    ← List.append_assoc _ _ rest]
  apply lex_then
  obtain ⟨-, -, ⟨hname, hflag⟩ | ⟨hname, hflag⟩⟩ := tool_spec h <;> rw [hname, hflag] <;> rfl

theorem commands_script (hquote : Quotes quote) (h : target.tool = .ok tool) :
    commands (target.script quote tool).toList = some (scriptCommands target tool) := by
  -- the frames around the first and the second quotation of the path
  let opened (commands : List Command) : Frame := { commands, word := some (bareWord "elide_abs=") }
  let directory : Word :=
    [.output [[bareWord "cd", [.output [[bareWord "dirname", quotedWord target.elide]]]],
      [bareWord "pwd"]], .char '/']
  have hdirname : ∀ commands, lex (between commands) "elide_abs=\"$(cd \"$(dirname ".toList =
      some (substituting [bareWord "dirname"]
        [{ words := [bareWord "cd"], word := some [] }, opened commands]) := fun _ => rfl
  have hbasename : ∀ commands, lex ((substituting [bareWord "dirname"]
      [{ words := [bareWord "cd"], word := some [] }, opened commands]).extend
        (quotedWord target.elide)) ")\" && pwd)/$(basename ".toList =
      some (substituting [bareWord "basename"]
        [{ commands, word := some (bareWord "elide_abs=" ++ directory) }]) := fun _ => rfl
  have hassigned : ∀ commands word, lex ((substituting [bareWord "basename"]
      [{ commands, word := some word }]).extend (quotedWord target.elide)) ")\"\n".toList =
        some (between (commands ++ [[word ++
          [.output [[bareWord "basename", quotedWord target.elide]]]]])) := fun _ _ => rfl
  have hcd : ∀ commands, lex (between commands) "cd \"$BUILD_WORKSPACE_DIRECTORY\"\n".toList =
      some (between (commands ++ [[bareWord "cd", [workspace]]])) := fun _ => rfl
  have hfiles : (tool.targets.map fun file => quote (target.shortPath file)) =
      (tool.targets.map target.shortPath).map quote := by simp
  have htext : lex {} ((target.script quote tool).toList ++ ['\n']) =
      some (between (scriptCommands target tool)) := by
    unfold Target.script
    simp only [String.toList_append, List.append_assoc, hfiles,
      -String.reduceToList, -String.reduceAppend]
    rw [lex_guard, lex_then (hdirname _), lex_then (hquote _ _ (.inl rfl)), lex_then (hbasename _),
      lex_then (hquote _ _ (.inl rfl)), lex_then (hassigned _ _), lex_then (hcd _), lex_tool h,
      hquote.lex_listed, lex_arguments]
    simp [scriptCommands, execWords, elideWord, directory]
    rfl
  rw [commands, htext]
  rfl

/-! ## Running the script -/

/-- The statements of the script. -/
def statements (target : Target) (tool : Tool) : List Statement :=
  [.simple [bareWord "set", bareWord "-eu"],
    .branch [bareWord "[", bareWord "-z", [.parameter "BUILD_WORKSPACE_DIRECTORY".toList true],
        bareWord "]"]
      [.simple [bareWord "echo", quotedWord message], .simple [bareWord "exit", bareWord "64"]] [],
    .simple [bareWord "elide_abs=" ++ elideWord target], .simple [bareWord "cd", [workspace]],
    .simple (bareWord "exec" :: execWords target tool)]

theorem parse_script (hquote : Quotes quote) (h : target.tool = .ok tool) :
    parse (target.script quote tool).toList = some (statements target tool) := by
  rw [parse, commands_script hquote h]
  rfl

/-- What the script starts Elide as. -/
def absolute (machine : Machine) (elide : String) : String :=
  (machine.output [["cd", (machine.output [["dirname", elide]]).1], ["pwd"]]).1 ++ "/" ++
    (machine.output [["basename", elide]]).1

/-- What the script starts in the workspace. -/
def Target.arguments (target : Target) (tool : Tool) (machine : Machine) : List String :=
  [absolute machine target.elide, tool.name, "--"] ++ tool.inPlaceFlag.toList ++
    tool.targets.map target.shortPath ++ machine.arguments

theorem expandCommand_execWords {elide : String} (h : store.value "elide_abs" = some elide) :
    expandCommand machine store (execWords target tool) =
      some ([elide, tool.name, "--"] ++ tool.inPlaceFlag.toList ++
        tool.targets.map target.shortPath ++ machine.arguments) := by
  have helide : ∀ words : Command, expandCommand machine store ([parameter "elide_abs"] :: words) =
      (expandCommand machine store words).map (elide :: ·) :=
    fun words => expandCommand_cons (by simp [parameter]) (expandWord_parameter h)
  have hfiles : (tool.targets.map fun file => quotedWord (target.shortPath file)) =
      (tool.targets.map target.shortPath).map quotedWord := by simp
  cases hflag : tool.inPlaceFlag <;> simp [execWords, helide, hfiles, hflag, -List.map_map]

def sampleMachine : Machine where
  arguments := ["--skip-sorting-imports"]
  output commands :=
    if commands = [["dirname", "../elide/bin/elide"]] then ("../elide/bin", true)
    else if commands = [["cd", "../elide/bin"], ["pwd"]] then ("/runfiles/elide/bin", true)
    else if commands = [["basename", "../elide/bin/elide"]] then ("elide", true)
    else ("", false)
  isDirectory directory := directory == "/home/dev/project"

def sampleStore : Store where
  value name := if name = "BUILD_WORKSPACE_DIRECTORY" then some "/home/dev/project" else none

end RulesElide.Format
