import Mathlib

/-!
# A part of the shell language

Scripts of simple commands, `for` and `if`: their text is read character by character with the
rules of quoting, the commands are grouped, and the script is run under `set -eu`.  What is not in
this part of the language is refused.

`Quotes` says what is asked of a function that quotes; `Quotes.lex_joined` and the lemmas around it
are about quoted values in a text.
-/

namespace Shell

/-! ## Words -/

/-- A part of a word, as it is written. -/
inductive Piece
  /-- A character outside of quotes. -/
  | bare (character : Char)
  | char (character : Char)
  /-- `$name`, and `${name:-}` if no value is to be the empty one. -/
  | parameter (name : List Char) (orEmpty : Bool)
  /-- `$@`. -/
  | arguments
  /-- `$(…)`: commands that are joined by `&&`. -/
  | output (commands : List (List (List Piece)))

abbrev Word := List Piece

/-- A simple command. -/
abbrev Command := List Word

/-- A value that is quoted as a whole. -/
def quotedWord (value : String) : Word :=
  value.toList.map .char

/-- A word without quotes. -/
def bareWord (text : String) : Word :=
  text.toList.map .bare

/-- `$name`. -/
def parameter (name : String) : Piece :=
  .parameter name.toList false

/-- The text of a word without quotes. -/
def bareText (word : Word) : Option (List Char) :=
  word.mapM fun
    | .bare character => some character
    | _ => none

/-- The word is this keyword. -/
def spells (keyword : String) (word : Word) : Bool :=
  bareText word = some keyword.toList

@[simp] theorem bareText_bareWord (text : String) :
    bareText (bareWord text) = some text.toList := by
  have hchars : ∀ text : List Char, bareText (text.map .bare) = some text := by
    intro text
    induction text with
    | nil => rfl
    | cons character text ih =>
        rw [bareText] at ih ⊢
        rw [List.map_cons, List.mapM_cons, ih]
        rfl
  exact hchars text.toList

@[simp] theorem spells_bareWord (keyword text : String) :
    spells keyword (bareWord text) = decide (text = keyword) := by
  simp [spells, ← String.toList_inj]

def isNameStart (character : Char) : Bool :=
  character.isAlpha || character == '_'

def isNameChar (character : Char) : Bool :=
  character.isAlphanum || character == '_'

/-- Characters that stand for themselves outside of quotes. -/
def isBare (character : Char) : Bool :=
  isNameChar character || "-./+@=,:%".toList.contains character

/-! ## Reading -/

/-- What was read last. -/
inductive Mode
  | blank
  | plain
  /-- A word that nothing can be added to. -/
  | ended
  | escape
  | single
  | double
  | doubleEscape
  | dollar
  | parameter (name : List Char)
  | braced (name : List Char)
  | orEmpty (name : List Char)
  | endBrace (name : List Char)
  | arguments
  | ampersand
  | redirect
  | redirectTo
  | comment

/-- The script, or a substitution, as far as it was read. -/
structure Frame where
  commands : List Command := []
  words : Command := []
  word : Option Word := none

structure State where
  mode : Mode := .blank
  current : Frame := {}
  /-- The frames around a substitution. -/
  outer : List Frame := []

namespace State

/-- The word goes on with a piece. -/
def add (state : State) (mode : Mode) (piece : Piece) : State :=
  { state with
    mode
    current := { state.current with word := some (state.current.word.getD [] ++ [piece]) } }

/-- There is a word, be it empty. -/
def openWord (state : State) (mode : Mode) : State :=
  { state with mode, current := { state.current with word := some (state.current.word.getD []) } }

def endWord (state : State) : State :=
  { state with
    mode := .blank
    current :=
      { state.current with
        words := state.current.words ++ state.current.word.toList
        word := none } }

def endCommand (state : State) : State :=
  let ended := state.endWord.current
  { state with
    mode := .blank
    current :=
      { commands :=
          if ended.words.isEmpty then ended.commands else ended.commands ++ [ended.words] } }

/-- `)`: the substitution is part of the word around it. -/
def endSubstitution (state : State) : Option State :=
  match state.outer with
  | [] => none
  | frame :: outer =>
      some ({ state with current := frame, outer }.add .double
        (.output state.endCommand.current.commands))

/-- A character outside of quotes. -/
def outside (state : State) (character : Char) : Option State :=
  if character = ' ' then some state.endWord
  else if character = '\n' then if state.outer.isEmpty then some state.endCommand else none
  else if character = ';' then
    if state.outer.isEmpty && !state.endWord.current.words.isEmpty then some state.endCommand
    else none
  else if character = '&' then
    if state.outer.isEmpty then none else some { state.endWord with mode := .ampersand }
  else if character = ')' then state.endSubstitution
  else if character = '\x27' then some (state.openWord .single)
  else if character = '"' then some (state.openWord .double)
  else if character = '\\' then some { state with mode := .escape }
  else if isBare character then some (state.add .plain (.bare character))
  else none

/-- A character in double quotes. -/
def inDouble (state : State) (character : Char) : Option State :=
  if character = '"' then some { state with mode := .plain }
  else if character = '$' then some { state with mode := .dollar }
  else if character = '\\' then some { state with mode := .doubleEscape }
  else if character = '\x60' then none
  else some (state.add .double (.char character))

/-- The character behind `$`. -/
def afterDollar (state : State) (character : Char) : Option State :=
  if character = '(' then
    some { mode := .blank, current := {}, outer := { state.current with } :: state.outer }
  else if character = '\x7b' then some { state with mode := .braced [] }
  else if character = '@' then
    match state.current.word with
    | some [] => some (state.add .arguments .arguments)
    | _ => none
  else if character.isDigit then some (state.add .double (.parameter [character] false))
  else if isNameStart character then some { state with mode := .parameter [character] }
  else none

def step (state : State) (character : Char) : Option State :=
  match state.mode with
  | .blank =>
      if character = '#' then some { state with mode := .comment }
      else if character = '>' then some { state with mode := .redirect }
      else if character = '[' ∨ character = ']' then some (state.add .ended (.bare character))
      else state.outside character
  | .plain => state.outside character
  | .ended => if " \n;)".toList.contains character then state.outside character else none
  | .escape =>
      if character = '\n' then
        some { state with mode := if state.current.word.isSome then .plain else .blank }
      else some (state.add .plain (.char character))
  | .single =>
      if character = '\x27' then some { state with mode := .plain }
      else some (state.add .single (.char character))
  | .double => state.inDouble character
  | .doubleEscape =>
      if character = '\n' then some { state with mode := .double }
      else if "$\"\\`".toList.contains character then some (state.add .double (.char character))
      else some ((state.add .double (.char '\\')).add .double (.char character))
  | .dollar => state.afterDollar character
  | .parameter name =>
      if isNameChar character then some { state with mode := .parameter (name ++ [character]) }
      else (state.add .double (.parameter name false)).inDouble character
  | .braced name =>
      if isNameChar character then some { state with mode := .braced (name ++ [character]) }
      else if character = ':' then some { state with mode := .orEmpty name }
      else if character = '\x7d' then some (state.add .double (.parameter name false))
      else none
  | .orEmpty name => if character = '-' then some { state with mode := .endBrace name } else none
  | .endBrace name =>
      if character = '\x7d' then some (state.add .double (.parameter name true)) else none
  | .arguments => if character = '"' then some { state with mode := .ended } else none
  | .ampersand => if character = '&' then some state.endCommand else none
  | .redirect => if character = '&' then some { state with mode := .redirectTo } else none
  | .redirectTo => if character.isDigit then some { state with mode := .ended } else none
  | .comment => if character = '\n' then some state.endCommand else some state

end State

def lex (state : State) (text : List Char) : Option State :=
  text.foldlM State.step state

/-- The simple commands of a text. -/
def commands (text : List Char) : Option (List Command) := do
  let state ← lex {} (text ++ ['\n'])
  match state.mode, state.outer with
  | .blank, [] => some state.current.commands
  | _, _ => none

/-! ## Grouping -/

inductive Statement
  | simple (command : Command)
  | forIn (name : List Char) (items : Command) (body : List Statement)
  | branch (test : Command) (yes no : List Statement)

/-- What stands behind a keyword that another command can follow. -/
def opens (keyword : String) : List Command → Option (List Command)
  | (first :: words) :: commands =>
      if spells keyword first then some (if words.isEmpty then commands else words :: commands)
      else none
  | _ => none

/-- What stands behind a keyword at the end of a compound command. -/
def closes (keyword : String) : List Command → Option (List Command)
  | [first] :: commands => if spells keyword first then some commands else none
  | _ => none

/-- The command belongs to the compound command around it. -/
def endsBlock (command : Command) : Bool :=
  match command with
  | first :: _ => ["do", "done", "then", "elif", "else", "fi"].any (spells · first)
  | [] => false

mutual

def parseBlock : ℕ → List Command → Option (List Statement × List Command)
  | 0, _ => none
  | _ + 1, [] => some ([], [])
  | fuel + 1, command :: commands =>
      if endsBlock command then some ([], command :: commands)
      else do
        let (statement, rest) ← parseStatement fuel command commands
        let (statements, rest) ← parseBlock fuel rest
        some (statement :: statements, rest)

def parseStatement : ℕ → Command → List Command → Option (Statement × List Command)
  | 0, _, _ => none
  | _ + 1, [], _ => none
  | fuel + 1, first :: words, commands =>
      if spells "for" first then parseFor fuel words commands
      else if spells "if" first then parseIf fuel words commands
      else some (.simple (first :: words), commands)

def parseFor : ℕ → Command → List Command → Option (Statement × List Command)
  | fuel + 1, name :: keyword :: items, commands => do
      guard (spells "in" keyword)
      let name ← bareText name
      let (body, rest) ← parseBlock fuel (← opens "do" commands)
      some (.forIn name items body, ← closes "done" rest)
  | _, _, _ => none

def parseIf : ℕ → Command → List Command → Option (Statement × List Command)
  | 0, _, _ => none
  | fuel + 1, test, commands => do
      let (yes, rest) ← parseBlock fuel (← opens "then" commands)
      match rest with
      | (first :: words) :: rest' =>
          if spells "elif" first then do
            let (other, rest) ← parseIf fuel words rest'
            some (.branch test yes [other], rest)
          else if spells "else" first then do
            let (no, rest) ← parseBlock fuel (← opens "else" rest)
            some (.branch test yes no, ← closes "fi" rest)
          else do
            some (.branch test yes [], ← closes "fi" rest)
      | _ => none

end

/-- The statements of a script. -/
def parse (text : List Char) : Option (List Statement) := do
  let commands ← commands text
  match ← parseBlock (4 * commands.length + 4) commands with
  | (statements, []) => some statements
  | _ => none

/-! ## Running -/

/-- What a script can ask for. -/
structure Machine where
  arguments : List String
  /-- What commands that are joined by `&&` write, without newlines at its end, and whether they
  succeed. -/
  output : List (List String) → String × Bool
  isDirectory : String → Bool

structure Store where
  value : String → Option String
  exported : String → Bool := fun _ => false
  /-- The argument of the last `cd`. -/
  directory : Option String := none

namespace Store

def set (store : Store) (name value : String) : Store :=
  { store with value := Function.update store.value name (some value) }

@[simp] theorem value_set (store : Store) (name value : String) :
    (store.set name value).value name = some value := by
  simp [set]

theorem value_set_of_ne (store : Store) {name other : String} (h : other ≠ name) (value : String) :
    (store.set name value).value other = store.value other := by
  simp [set, h]

/-- `export name=value`, or without the value. -/
def publish (store : Store) (name : String) (value : Option String) : Store :=
  { store with
    value := if value.isSome then Function.update store.value name value else store.value
    exported := Function.update store.exported name true }

/-- The environment of the commands that are run. -/
def environment (store : Store) (name : String) : Option String :=
  if store.exported name then store.value name else none

theorem value_publish_of_ne (store : Store) {name other : String} (h : other ≠ name)
    (value : Option String) : (store.publish name value).value other = store.value other := by
  cases value <;> simp [publish, h]

theorem environment_publish (store : Store) (name value : String) :
    (store.publish name (some value)).environment name = some value := by
  simp [publish, environment]

theorem environment_publish_none (store : Store) (name : String) :
    (store.publish name none).environment name = store.value name := by
  simp [publish, environment]

theorem environment_publish_of_ne (store : Store) {name other : String} (h : other ≠ name)
    (value : Option String) :
    (store.publish name value).environment other = store.environment other := by
  cases value <;> simp [publish, environment, h]

end Store

/-- How a script ends before its last command. -/
inductive Stop
  /-- The process goes on as another program. -/
  | exec (arguments : List String) (store : Store)
  | exit (code : String)
  /-- A command fails under `set -e`, or a variable has no value under `set -u`. -/
  | failed
  /-- A command that is not part of the language. -/
  | unknown

section Expansion

variable (machine : Machine) (store : Store)

mutual

/-- The value of a piece, and the status of the last substitution. -/
def expandPiece : Piece → Option (String × Option Bool)
  | .bare character => some (String.singleton character, none)
  | .char character => some (String.singleton character, none)
  | .parameter name orEmpty =>
      if orEmpty then some ((store.value (String.ofList name)).getD "", none)
      else (store.value (String.ofList name)).map fun value => (value, none)
  | .arguments => none
  | .output commands =>
      match expandCommands commands with
      | some commands => some ((machine.output commands).1, some (machine.output commands).2)
      -- under `set -u` the substitution ends where a variable has no value
      | none => some ("", some false)

def expandWord : List Piece → Option (String × Option Bool)
  | [] => some ("", none)
  | piece :: word => do
      let (front, status) ← expandPiece piece
      let (back, later) ← expandWord word
      some (front ++ back, later.or status)

def expandCommand : List (List Piece) → Option (List String)
  | [] => some []
  | [.arguments] :: words => do
      some (machine.arguments ++ (← expandCommand words))
  | word :: words => do
      let (value, _) ← expandWord word
      some (value :: (← expandCommand words))

def expandCommands : List (List (List Piece)) → Option (List (List String))
  | [] => some []
  | command :: commands => do
      let words ← expandCommand command
      some (words :: (← expandCommands commands))

end

/-- The name and the value of a word that is an assignment. -/
def assignmentFrom (name : List Char) : Word → Option (String × Word)
  | .bare character :: word =>
      if character = '=' then if name = [] then none else some (String.ofList name, word)
      else if (if name = [] then isNameStart character else isNameChar character) then
        assignmentFrom (name ++ [character]) word
      else none
  | _ => none

/-- What one word of `export` exports. -/
def exportWord (word : Word) : Except Stop (String × Option String) :=
  match assignmentFrom [] word with
  | some (name, value) =>
      match expandWord machine store value with
      | some (value, _) => .ok (name, some value)
      | none => .error .failed
  | none =>
      match bareText word with
      | some name => .ok (String.ofList name, none)
      | none => .error .unknown

/-- The words of a command, where all variables must have values. -/
def words (command : Command) : Except Stop (List String) :=
  match expandCommand machine store command with
  | some words => .ok words
  | none => .error .failed

def runBuiltin (name : Word) (command : Command) : Except Stop Store := do
  if spells "exec" name then
    let arguments ← words machine store command
    if arguments = [] then .ok store else .error (.exec arguments store)
  else if spells "export" name then
    let published ← command.mapM (exportWord machine store)
    .ok (published.foldl (fun store entry => store.publish entry.1 entry.2) store)
  else if spells "echo" name then
    let _ ← words machine store command
    .ok store
  else if spells "cd" name then
    match ← words machine store command with
    | [directory] =>
        if machine.isDirectory directory then .ok { store with directory := some directory }
        else .error .failed
    | _ => .error .unknown
  else if spells "set" name then
    match ← words machine store command with
    | ["-eu"] => .ok store
    | _ => .error .unknown
  else if spells "exit" name then
    match ← words machine store command with
    | [code] => .error (.exit code)
    | _ => .error .unknown
  else .error .unknown

def runSimple (command : Command) : Except Stop Store :=
  match command with
  | [] => .ok store
  | first :: rest =>
      match assignmentFrom [] first with
      | some (name, value) =>
          if rest.isEmpty then
            -- the status of an assignment is that of its last substitution
            match expandWord machine store value with
            | some (_, some false) => .error .failed
            | some (value, _) => .ok (store.set name value)
            | none => .error .failed
          else .error .unknown
      | none => runBuiltin machine store first rest

/-- `[ -n word ]`, `[ -z word ]` and `[ -d word ]`. -/
def test (command : Command) : Except Stop Bool :=
  match command with
  | [first, operator, word, last] =>
      if spells "[" first && spells "]" last then
        match expandWord machine store word with
        | none => .error .failed
        | some (value, _) =>
            if spells "-n" operator then .ok (value != "")
            else if spells "-z" operator then .ok (value == "")
            else if spells "-d" operator then .ok (machine.isDirectory value)
            else .error .unknown
      else .error .unknown
  | _ => .error .unknown

end Expansion

mutual

def run (machine : Machine) : Statement → Store → Except Stop Store
  | .simple command, store => runSimple machine store command
  | .forIn name items body, store => do
      let values ← words machine store items
      values.foldlM
        (fun store value => runAll machine body (store.set (String.ofList name) value)) store
  | .branch condition yes no, store => do
      if ← test machine store condition then runAll machine yes store
      else runAll machine no store

def runAll (machine : Machine) : List Statement → Store → Except Stop Store
  | [], store => .ok store
  | statement :: statements, store => do
      runAll machine statements (← run machine statement store)

end

/-- A script from its beginning. -/
def script (machine : Machine) (text : List Char) (store : Store) : Except Stop Store :=
  match parse text with
  | some statements => runAll machine statements store
  | none => .error .unknown

/-! ## Reading quoted values -/

theorem lex_append (state : State) (text more : List Char) :
    lex state (text ++ more) = (lex state text).bind fun state => lex state more :=
  List.foldlM_append

/-- Reading goes on where it stopped. -/
theorem lex_then {state middle : State} {text more : List Char} (h : lex state text = some middle) :
    lex state (text ++ more) = lex middle more := by
  rw [lex_append, h]
  rfl

theorem lex_cons {state next : State} {character : Char} (h : state.step character = some next)
    (rest : List Char) : lex state (character :: rest) = lex next rest := by
  rw [lex, List.foldlM_cons, h]
  rfl

/-- Between two commands of a script. -/
def between (commands : List Command) : State :=
  { current := { commands } }

/-- Between two words of a command. -/
def within (commands : List Command) (words : Command) : State :=
  { current := { commands, words } }

/-- Behind some words of a substitution. -/
def substituting (words : Command) (outer : List Frame) : State :=
  { current := { words }, outer }

/-- In double quotes, with a word that was begun. -/
def State.doubleQuoting (state : State) (word : Word) : State :=
  { state with mode := .double, current := { state.current with word := some word } }

/-- Other characters than these stand for themselves in double quotes. -/
def isPlainInDouble (character : Char) : Bool :=
  character ≠ '"' && character ≠ '$' && character ≠ '\\' && character ≠ '\x60'

theorem lex_doubleQuoting (state : State) (word : Word) {text : List Char}
    (h : text.all isPlainInDouble = true) :
    lex (state.doubleQuoting word) text = some (state.doubleQuoting (word ++ text.map .char)) := by
  induction text generalizing word with
  | nil =>
      rw [List.map_nil, List.append_nil]
      rfl
  | cons character text ih =>
      rw [List.all_cons, Bool.and_eq_true] at h
      obtain ⟨hfirst, hrest⟩ := h
      simp only [isPlainInDouble, Bool.and_eq_true, decide_eq_true_eq, ne_eq] at hfirst
      obtain ⟨⟨⟨hquote, hdollar⟩, hbackslash⟩, hbackquote⟩ := hfirst
      -- between double quotes only four characters have a meaning
      have hstep : (state.doubleQuoting word).step character =
          some ((state.doubleQuoting word).add .double (.char character)) := by
        change (state.doubleQuoting word).inDouble character = _
        rw [State.inDouble, if_neg hquote, if_neg hdollar, if_neg hbackslash, if_neg hbackquote]
      have hadd : (state.doubleQuoting word).add .double (.char character) =
          state.doubleQuoting (word ++ [.char character]) := rfl
      rw [lex_cons hstep, hadd, ih _ hrest, List.map_cons, List.append_assoc, List.singleton_append]

/-- The word that is read goes on with this one. -/
def State.extend (state : State) (word : Word) : State :=
  { state with
    mode := .plain
    current := { state.current with word := some (state.current.word.getD [] ++ word) } }

/-- A text that can stand in a script as it is. -/
def BareText (text : String) : Prop :=
  text ≠ "" ∧ text.toList.all isBare = true

theorem step_bare {state : State} (hmode : state.mode = .blank ∨ state.mode = .plain)
    {character : Char} (h : isBare character = true) :
    state.step character = some (state.add .plain (.bare character)) := by
  have hother : ∀ {special : Char}, isBare special = false → character ≠ special := by
    rintro special hspecial rfl
    exact absurd h (by rw [hspecial]; exact Bool.false_ne_true)
  have houtside : state.outside character = some (state.add .plain (.bare character)) := by
    unfold State.outside
    rw [if_neg (hother rfl), if_neg (hother rfl), if_neg (hother rfl), if_neg (hother rfl),
      if_neg (hother rfl), if_neg (hother rfl), if_neg (hother rfl), if_neg (hother rfl), if_pos h]
  rcases hmode with hblank | hplain
  · rw [State.step, hblank]
    dsimp only
    rw [if_neg (hother rfl), if_neg (hother rfl), if_neg (not_or.mpr ⟨hother rfl, hother rfl⟩),
      houtside]
  · rw [State.step, hplain]
    exact houtside

/-- Where a word can begin or go on, a bare text is read as it is. -/
theorem lex_bare {text : String} (h : BareText text) {state : State}
    (hmode : state.mode = .blank ∨ state.mode = .plain) :
    lex state text.toList = some (state.extend (bareWord text)) := by
  -- the first character opens the word, the others extend it
  have hchars : ∀ (text : List Char) (state : State), text ≠ [] → text.all isBare = true →
      state.mode = .blank ∨ state.mode = .plain →
        lex state text = some (state.extend (text.map .bare)) := by
    intro text
    induction text with
    | nil => exact fun _ hne => absurd rfl hne
    | cons character text ih =>
        intro state _ hall hmode
        rw [List.all_cons, Bool.and_eq_true] at hall
        rw [lex_cons (step_bare hmode hall.1)]
        cases text with
        | nil => rfl
        | cons second text =>
            rw [ih _ (List.cons_ne_nil _ _) hall.2 (.inr rfl)]
            simp [State.extend, State.add]
  exact hchars text.toList state (by simpa using h.1) h.2 hmode

/-- What quoting is for: the text is read as the value, wherever a word can begin or go on. -/
def Quotes (quote : String → String) : Prop :=
  ∀ value state, state.mode = .blank ∨ state.mode = .plain →
    lex state (quote value).toList = some (state.extend (quotedWord value))

section Quotes

variable {quote : String → String} {commands : List Command} {words : Command}

/-- A quoted value with a blank is a word. -/
theorem Quotes.lex_blank (h : Quotes quote) (value : String) (rest : List Char) :
    lex (within commands words) ((quote value).toList ++ (" ".toList ++ rest)) =
      lex (within commands (words ++ [quotedWord value])) rest := by
  rw [lex_then (h value _ (.inl rfl))]
  rfl

/-- Quoted values, each with a blank behind it. -/
theorem Quotes.lex_spaced (h : Quotes quote) (values : List String) (rest : List Char) :
    lex (within commands words)
        ((values.flatMap fun value => (quote value).toList ++ " ".toList) ++ rest) =
      lex (within commands (words ++ values.map quotedWord)) rest := by
  induction values generalizing words with
  | nil => rw [List.map_nil, List.append_nil, List.flatMap_nil, List.nil_append]
  | cons value values ih =>
      rw [List.flatMap_cons, List.append_assoc, List.append_assoc, h.lex_blank value, ih,
        List.map_cons, List.append_assoc, List.singleton_append]

/-- Quoted values with blanks between them, and one more behind them. -/
theorem Quotes.lex_listed (h : Quotes quote) (values : List String) (rest : List Char) :
    lex (within commands words)
        ((" ".intercalate (values.map quote)).toList ++ (" ".toList ++ rest)) =
      lex (within commands (words ++ values.map quotedWord)) rest := by
  rw [String.toList_intercalate, List.map_map]
  induction values generalizing words with
  | nil =>
      have hblank : lex (within commands words) " ".toList =
          some (within commands (words ++ [])) := rfl
      exact lex_then hblank
  | cons value values ih =>
      -- the last value is followed by the blank of the rest, not by a separator
      cases values with
      | nil =>
          rw [List.map_singleton, List.intercalate_singleton]
          exact h.lex_blank value rest
      | cons second values =>
          have hrest : _ = lex (within commands _) rest := @ih (words ++ [quotedWord value])
          rw [List.map_cons] at hrest
          rw [List.map_cons, List.map_cons, List.intercalate_cons_cons, List.append_assoc,
            List.append_assoc]
          refine (h.lex_blank value _).trans (hrest.trans ?_)
          simp

theorem endCommand_eq {state : State} (houter : state.outer = [])
    (hwords : state.endWord.current.words ≠ []) :
    state.endCommand = between (state.current.commands ++ [state.endWord.current.words]) := by
  simp only [State.endCommand, houter, List.isEmpty_eq_false_iff.mpr hwords]
  rfl

/-- A semicolon ends a command. -/
theorem step_semicolon {state : State} (hmode : state.mode = .blank ∨ state.mode = .plain)
    (houter : state.outer = []) (hwords : state.endWord.current.words ≠ []) :
    state.step ';' =
      some (between (state.current.commands ++ [state.endWord.current.words])) := by
  have houtside : state.step ';' = state.outside ';' := by
    rcases hmode with hblank | hplain
    · rw [State.step, hblank]
      rfl
    · rw [State.step, hplain]
  have hsemicolon : state.outside ';' =
      if state.outer.isEmpty && !state.endWord.current.words.isEmpty then some state.endCommand
      else none := rfl
  rw [houtside, hsemicolon, houter, List.isEmpty_eq_false_iff.mpr hwords,
    endCommand_eq houter hwords]
  rfl

/-- The arguments of the script at the end of a line. -/
theorem lex_arguments (commands : List Command) (words : Command) (rest : List Char) :
    lex (within commands words) ("\"$@\"\n".toList ++ rest) =
      lex (between (commands ++ [words ++ [[.arguments]]])) rest := by
  let ended : State :=
    { mode := .ended, current := { commands, words, word := some [.arguments] } }
  have hword : lex (within commands words) "\"$@\"".toList = some ended := rfl
  have hstep : ended.step '\n' = some ended.endCommand := rfl
  have hend : ended.endCommand = between (commands ++ [words ++ [[.arguments]]]) :=
    endCommand_eq rfl (by simp [ended, State.endWord])
  rw [hend] at hstep
  have hrest : lex (within commands words) ("\"$@\"".toList ++ '\n' :: rest) =
      lex ended ('\n' :: rest) := lex_then hword
  exact hrest.trans (lex_cons hstep rest)

/-- The end of a double-quoted word that is written to the standard error, at the end of a line. -/
theorem lex_toError (commands : List Command) (words : Command) (word : Word) (rest : List Char) :
    lex ((within commands words).doubleQuoting word) ("\" >&2\n".toList ++ rest) =
      lex (between (commands ++ [words ++ [word]])) rest := by
  let ended : State := { mode := .ended, current := { commands, words := words ++ [word] } }
  have hword : lex ((within commands words).doubleQuoting word) "\" >&2".toList = some ended := rfl
  have hwords : ended.endWord.current.words = words ++ [word] := List.append_nil _
  have hstep : ended.step '\n' = some ended.endCommand := rfl
  have hend : ended.endCommand = between (commands ++ [words ++ [word]]) := by
    rw [endCommand_eq rfl (by simp [hwords]), hwords]
  rw [hend] at hstep
  have hrest : lex ((within commands words).doubleQuoting word) ("\" >&2".toList ++ '\n' :: rest) =
      lex ended ('\n' :: rest) := lex_then hword
  exact hrest.trans (lex_cons hstep rest)

theorem lex_semicolon (hwords : words ≠ []) (rest : List Char) :
    lex (within commands words) (";".toList ++ rest) =
      lex (between (commands ++ [words])) rest := by
  have hsame : (within commands words).endWord.current.words = words := List.append_nil words
  have hstep : (within commands words).step ';' = some (between (commands ++ [_])) :=
    step_semicolon (.inl rfl) rfl (by rwa [hsame])
  rw [hsame] at hstep
  exact lex_cons hstep rest

/-- The last quoted value of a command. -/
theorem Quotes.lex_last (h : Quotes quote) (value : String) (rest : List Char) :
    lex (within commands words) ((quote value).toList ++ (";".toList ++ rest)) =
      lex (between (commands ++ [words ++ [quotedWord value]])) rest := by
  have hstep : ((within commands words).extend (quotedWord value)).step ';' =
      some (between (commands ++ [words ++ [quotedWord value]])) :=
    step_semicolon (.inr rfl) rfl (by simp [State.extend, State.endWord])
  rw [lex_then (h value _ (.inl rfl))]
  exact lex_cons hstep rest

/-- Quoted values with blanks between them, to the end of their command. -/
theorem Quotes.lex_joined (h : Quotes quote) (values : List String) (hwords : words ≠ [])
    (rest : List Char) :
    lex (within commands words)
        ((" ".intercalate (values.map quote)).toList ++ (";".toList ++ rest)) =
      lex (between (commands ++ [words ++ values.map quotedWord])) rest := by
  rw [String.toList_intercalate, List.map_map]
  induction values generalizing words with
  | nil =>
      have hnil : words ++ List.map quotedWord [] = words := List.append_nil words
      rw [hnil]
      exact lex_semicolon hwords rest
  | cons value values ih =>
      cases values with
      | nil =>
          rw [List.map_singleton, List.intercalate_singleton]
          exact h.lex_last value rest
      | cons second values =>
          have hrest : _ = lex (between _) rest := @ih (words ++ [quotedWord value]) (by simp)
          rw [List.map_cons] at hrest
          rw [List.map_cons, List.map_cons, List.intercalate_cons_cons, List.append_assoc,
            List.append_assoc]
          refine (h.lex_blank value _).trans (hrest.trans ?_)
          simp

end Quotes

/-! ## Quoting with single quotes -/

/-- A character in single quotes; a quote stands outside of them, behind a backslash. -/
def inSingle (character : Char) : List Char :=
  if character = '\x27' then ['\x27', '\\', '\x27', '\x27'] else [character]

/-- A value in single quotes. -/
def singleQuote (value : String) : String :=
  String.ofList ('\x27' :: (value.toList.flatMap inSingle ++ ['\x27']))

/-- In single quotes, with a word that was begun. -/
def State.quoting (state : State) (word : Word) : State :=
  { state with mode := .single, current := { state.current with word := some word } }

theorem lex_inSingle (state : State) (word : Word) (character : Char) :
    lex (state.quoting word) (inSingle character) =
      some (state.quoting (word ++ [.char character])) := by
  unfold inSingle
  split
  · rename_i hquote
    subst hquote
    rfl
  · rename_i hother
    have hstep : (state.quoting word).step character =
        some ((state.quoting word).add .single (.char character)) := if_neg hother
    rw [lex_cons hstep]
    rfl

theorem quotes_singleQuote : Quotes singleQuote := by
  intro value state hmode
  have hopen : lex state ['\x27'] = some (state.quoting (state.current.word.getD [])) := by
    obtain ⟨mode, current, outer⟩ := state
    rcases hmode with hblank | hplain
    · cases hblank
      rfl
    · cases hplain
      rfl
  -- by induction on the characters; a quote leaves the string and comes back
  have hvalue : ∀ (text : List Char) (word : Word),
      lex (state.quoting word) (text.flatMap inSingle) =
        some (state.quoting (word ++ text.map .char)) := by
    intro text
    induction text with
    | nil =>
        intro word
        rw [List.map_nil, List.append_nil]
        rfl
    | cons character text ih =>
        intro word
        rw [List.flatMap_cons, lex_then (lex_inSingle state word character), ih, List.map_cons,
          List.append_assoc, List.singleton_append]
  rw [singleQuote, String.toList_ofList, ← List.singleton_append, lex_then hopen,
    lex_then (hvalue _ _)]
  rfl

/-! ## Expanding words -/

variable {machine : Machine} {store : Store} {word : Word} {words : Command} {value : String}
  {status : Option Bool}

/-- A word of characters only. -/
theorem expandWord_chars {piece : Char → Piece}
    (hpiece : ∀ character, expandPiece machine store (piece character) =
      some (String.singleton character, none)) (text : List Char) :
    expandWord machine store (text.map piece) = some (String.ofList text, none) := by
  induction text with
  | nil => rfl
  | cons character text ih =>
      rw [List.map_cons, expandWord, ih, hpiece]
      simp

@[simp] theorem expandWord_quotedWord (value : String) :
    expandWord machine store (quotedWord value) = some (value, none) := by
  rw [quotedWord, expandWord_chars fun _ => rfl, String.ofList_toList]

@[simp] theorem expandWord_bareWord (text : String) :
    expandWord machine store (bareWord text) = some (text, none) := by
  rw [bareWord, expandWord_chars fun _ => rfl, String.ofList_toList]

theorem expandWord_parameter {name : String} (h : store.value name = some value) :
    expandWord machine store [parameter name] = some (value, none) := by
  simp [parameter, expandWord, expandPiece, h]

/-- What stands behind a text that is expanded to itself. -/
theorem expandWord_bareWord_append (text : String)
    (h : expandWord machine store word = some (value, status)) :
    expandWord machine store (bareWord text ++ word) = some (text ++ value, status) := by
  have hchars : ∀ text : List Char, expandWord machine store (text.map .bare ++ word) =
      some (String.ofList text ++ value, status) := by
    intro text
    induction text with
    | nil => simpa using h
    | cons character text ih =>
        have hpiece : expandPiece machine store (.bare character) =
            some (String.singleton character, none) := rfl
        rw [List.map_cons, List.cons_append, expandWord, hpiece, ih]
        simp [← String.toList_inj]
  rw [bareWord, hchars, String.ofList_toList]

theorem expandCommand_cons (hword : word ≠ [.arguments])
    (h : expandWord machine store word = some (value, status)) :
    expandCommand machine store (word :: words) =
      (expandCommand machine store words).map (value :: ·) := by
  rw [expandCommand, h]
  · cases expandCommand machine store words <;> rfl
  · exact hword

@[simp] theorem expandCommand_nil : expandCommand machine store [] = some [] := rfl

@[simp] theorem expandCommand_arguments :
    expandCommand machine store [[.arguments]] = some machine.arguments := by
  simp [expandCommand]

theorem map_ne_arguments {piece : Char → Piece} (hpiece : ∀ character, piece character ≠ .arguments)
    (text : List Char) : text.map piece ≠ [.arguments] := by
  cases text with
  | nil => simp
  | cons character text => simp [hpiece]

@[simp] theorem expandCommand_quotedWord (value : String) (words : Command) :
    expandCommand machine store (quotedWord value :: words) =
      (expandCommand machine store words).map (value :: ·) :=
  expandCommand_cons (map_ne_arguments (by simp) _) (expandWord_quotedWord value)

@[simp] theorem expandCommand_bareWord (text : String) (words : Command) :
    expandCommand machine store (bareWord text :: words) =
      (expandCommand machine store words).map (text :: ·) :=
  expandCommand_cons (map_ne_arguments (by simp) _) (expandWord_bareWord text)

/-- Quoted values are the arguments that they quote. -/
@[simp] theorem expandCommand_quotedWords (values : List String) (words : Command) :
    expandCommand machine store (values.map quotedWord ++ words) =
      (expandCommand machine store words).map (values ++ ·) := by
  induction values with
  | nil => simp
  | cons value values ih =>
      rw [List.map_cons, List.cons_append, expandCommand_quotedWord, ih]
      cases expandCommand machine store words <;> rfl

/-- The value of a substitution of one command. -/
theorem expandWord_output {command : Command} {arguments : List String}
    (h : expandCommand machine store command = some arguments) :
    expandWord machine store [.output [command]] =
      some ((machine.output [arguments]).1, some (machine.output [arguments]).2) := by
  simp [expandWord, expandPiece, expandCommands, h]

/-! ## Running commands -/

/-- An assignment fails if the last substitution does. -/
theorem run_assignment {first : Word} {name : String}
    (hname : assignmentFrom [] first = some (name, word))
    (h : expandWord machine store word = some (value, status)) :
    run machine (.simple [first]) store =
      if status = some false then .error .failed else .ok (store.set name value) := by
  rw [run, runSimple]
  simp only [hname, h]
  rcases status with _ | _ | _ <;> rfl

/-- `set -eu` is what all scripts are run under. -/
theorem run_set : run machine (.simple [bareWord "set", bareWord "-eu"]) store = .ok store := by
  have hwords : expandCommand machine store [bareWord "-eu"] = some ["-eu"] := by simp
  have hname : assignmentFrom [] (bareWord "set") = none := rfl
  rw [run, runSimple, hname]
  simp only [runBuiltin, Shell.words, spells_bareWord, hwords]
  rfl

theorem exportWord_assignment {first : Word} {name : String}
    (hname : assignmentFrom [] first = some (name, word))
    (h : expandWord machine store word = some (value, status)) :
    exportWord machine store first = .ok (name, some value) := by
  simp only [exportWord, hname, h]

theorem exportWord_name {name : String} (hname : assignmentFrom [] (bareWord name) = none) :
    exportWord machine store (bareWord name) = .ok (name, none) := by
  simp only [exportWord, hname, bareText_bareWord, String.ofList_toList]

theorem run_export {published : List (String × Option String)}
    (h : words.mapM (exportWord machine store) = .ok published) :
    run machine (.simple (bareWord "export" :: words)) store =
      .ok (published.foldl (fun store entry => store.publish entry.1 entry.2) store) := by
  have hname : assignmentFrom [] (bareWord "export") = none := rfl
  rw [run, runSimple, hname]
  simp only [runBuiltin, spells_bareWord, h]
  rfl

theorem run_exec {first : Word} {arguments : List String}
    (hfirst : spells "exec" first = true) (hname : assignmentFrom [] first = none)
    (h : expandCommand machine store words = some arguments) (hne : arguments ≠ []) :
    run machine (.simple (first :: words)) store = .error (.exec arguments store) := by
  rw [run, runSimple]
  simp only [hname]
  rw [runBuiltin, if_pos hfirst, Shell.words, h]
  exact if_neg hne

theorem test_empty (h : expandWord machine store word = some (value, status)) :
    test machine store [bareWord "[", bareWord "-z", word, bareWord "]"] = .ok (value == "") := by
  simp only [test, h]
  rfl

theorem test_nonempty (h : expandWord machine store word = some (value, status)) :
    test machine store [bareWord "[", bareWord "-n", word, bareWord "]"] = .ok (value != "") := by
  simp only [test, h]
  rfl

theorem test_directory (h : expandWord machine store word = some (value, status)) :
    test machine store [bareWord "[", bareWord "-d", word, bareWord "]"] =
      .ok (machine.isDirectory value) := by
  simp only [test, h]
  rfl

variable {statement : Statement} {statements : List Statement} {next : Store} {stop : Stop}

theorem runAll_of_ok (h : run machine statement store = .ok next) :
    runAll machine (statement :: statements) store = runAll machine statements next := by
  rw [runAll, h]
  rfl

theorem runAll_of_error (h : run machine statement store = .error stop) :
    runAll machine (statement :: statements) store = .error stop := by
  rw [runAll, h]
  rfl

theorem runAll_singleton : runAll machine [statement] store = run machine statement store := by
  rw [runAll]
  cases run machine statement store <;> rfl

theorem run_branch {condition : Command} {yes no : List Statement} {result : Bool}
    (h : test machine store condition = .ok result) :
    run machine (.branch condition yes no) store =
      if result then runAll machine yes store else runAll machine no store := by
  rw [run, h]
  rfl

/-- A loop over quoted values is a loop over the values. -/
theorem run_forIn (machine : Machine) (store : Store) (name : String) (values : List String)
    (body : List Statement) :
    run machine (.forIn name.toList (values.map quotedWord) body) store =
      values.foldlM (fun store value => runAll machine body (store.set name value)) store := by
  have hvalues : expandCommand machine store (values.map quotedWord) = some values := by
    rw [← List.append_nil (values.map quotedWord), expandCommand_quotedWords]
    simp
  rw [run, Shell.words, hvalues, String.ofList_toList]
  rfl

end Shell
