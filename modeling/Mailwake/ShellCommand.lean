import Mathlib.Data.List.TakeWhile

/-!
# Command search of a shell

How a POSIX shell reads the words of a simple command and finds the command in them. A word is kept
with its quotes: a leading `!` is the reserved word only where it is not quoted, and a word is an
assignment only where its name and the sign after it are not. The assignments may set the path, and
a name without a slash is a built-in or is looked for in the directories of the path.
-/
namespace ShellCommand

abbrev Word := List Char

/-- A part of a word: one character, or a quoted text. -/
inductive Piece where
  | plain (c : Char)
  | quoted (text : Word)
  deriving DecidableEq

/-- A word before its quotes are removed. -/
abbrev Raw := List Piece

def Piece.text : Piece → Word
  | .plain c => [c]
  | .quoted text => text

def unquote (raw : Raw) : Word := raw.flatMap Piece.text

/-- The quotes that are open, and what they hold so far. -/
inductive Quotes where
  | outside
  | single (text : Word)
  | double (text : Word)

def extend (raw : Option Raw) (piece : Piece) : Option Raw := some (raw.getD [] ++ [piece])

/-- Within double quotes a backslash stays in front of any other character. -/
def escaped (c : Char) : Word :=
  if c ∈ ['$', '\x60', '\x22', '\\'] then [c] else ['\\', c]

/-- The words of the rest of a command, given the word that has begun. A quote that is not closed
and a backslash at the end are errors. -/
def wordsFrom : Quotes → Option Raw → Word → Option (List Raw)
  | .outside, raw, [] => some raw.toList
  | .outside, raw, '\\' :: c :: rest => wordsFrom .outside (extend raw (.quoted [c])) rest
  | .outside, _, ['\\'] => none
  | .outside, raw, c :: rest =>
    if c = ' ' ∨ c = '\t' then (wordsFrom .outside none rest).map fun words => raw.toList ++ words
    else if c = '\x27' then wordsFrom (.single []) raw rest
    else if c = '\x22' then wordsFrom (.double []) raw rest
    else wordsFrom .outside (extend raw (.plain c)) rest
  | .single text, raw, c :: rest =>
    if c = '\x27' then wordsFrom .outside (extend raw (.quoted text)) rest
    else wordsFrom (.single (text ++ [c])) raw rest
  | .double text, raw, '\\' :: c :: rest => wordsFrom (.double (text ++ escaped c)) raw rest
  | .double text, raw, c :: rest =>
    if c = '\x22' then wordsFrom .outside (extend raw (.quoted text)) rest
    else wordsFrom (.double (text ++ [c])) raw rest
  | .single _, _, [] => none
  | .double _, _, [] => none

/-- The words of a command that is free of operators, expansions and comments. -/
def posixWords (command : Word) : Option (List Raw) := wordsFrom .outside none command

/-- The surroundings that a shell and its caller share. -/
structure Host where
  path : Option Word
  /-- The path names an executable file, taken from the working directory. -/
  executable : Word → Bool

structure Shell where
  builtin : Word → Bool
  /-- The path that is searched where none is set. -/
  defaultPath : Word

def bang : Raw := [.plain '!']

def isName : Word → Bool
  | [] => false
  | first :: rest =>
    (first.isAlpha || first = '_') && rest.all fun c => c.isAlphanum || c = '_'

/-- What stands before the first sign and after it, if nothing is quoted up to there. -/
def splitAssignment : Raw → Option (Word × Raw)
  | .plain c :: rest =>
    if c = '=' then some ([], rest)
    else (splitAssignment rest).map fun next => (c :: next.1, next.2)
  | _ => none

/-- The name and the value of an assignment. -/
def assignment (raw : Raw) : Option (Word × Word) :=
  (splitAssignment raw).bind fun parts =>
    if isName parts.1 then some (parts.1, unquote parts.2) else none

/-- An empty directory in a path is the working directory. -/
def directories (path : Word) : List Word := path.splitOn ':'

def inDirectory (directory program : Word) : Word :=
  match directory.getLast? with
  | none => program
  | some '/' => directory ++ program
  | some _ => directory ++ '/' :: program

def onPath (host : Host) (path program : Word) : Bool :=
  (directories path).any fun directory => host.executable (inDirectory directory program)

def withoutBang (words : List Raw) : List Raw :=
  if words.head? = some bang then words.tail else words

def assignments (words : List Raw) : List (Word × Word) :=
  ((withoutBang words).takeWhile fun word => (assignment word).isSome).filterMap assignment

/-- The command name, if there is any. -/
def name (words : List Raw) : Option Word :=
  ((withoutBang words).find? fun word => !(assignment word).isSome).map unquote

/-- The path that is searched; of several assignments to it the last counts. -/
def searchedPath (shell : Shell) (host : Host) (words : List Raw) : Word :=
  match (assignments words).reverse.find? fun pair => pair.1 = "PATH".toList with
  | some pair => pair.2
  | none => host.path.getD shell.defaultPath

def finds (shell : Shell) (host : Host) (path program : Word) : Bool :=
  if '/' ∈ program then host.executable program
  else shell.builtin program || onPath host path program

/-- There is a command to find, and the shell does not find it. -/
def misses (shell : Shell) (host : Host) (words : List Raw) : Bool :=
  (name words).any fun program => !finds shell host (searchedPath shell host words) program

/-- An assignment is one after its quotes are removed. -/
theorem unquote_of_splitAssignment {raw rest : Raw} {before : Word}
    (h : splitAssignment raw = some (before, rest)) :
    unquote raw = before ++ '=' :: unquote rest ∧ '=' ∉ before := by
  induction raw generalizing before with
  | nil => cases h
  | cons piece raw ih =>
    cases piece with
    | quoted text => cases h
    | plain c =>
      rw [splitAssignment] at h
      split at h
      · rename_i sign
        cases h
        exact ⟨by rw [sign]; rfl, List.not_mem_nil⟩
      · rename_i other
        obtain ⟨⟨front, back⟩, hs, same⟩ := Option.map_eq_some_iff.mp h
        cases same
        obtain ⟨whole, clean⟩ := ih hs
        refine ⟨congrArg (c :: ·) whole, ?_⟩
        rw [List.mem_cons, not_or]
        exact ⟨Ne.symm other, clean⟩

example : posixWords "A='b c' \"d\"e \\!".toList =
    some [[.plain 'A', .plain '=', .quoted "b c".toList], [.quoted ['d'], .plain 'e'],
      [.quoted ['!']]] := by decide +kernel

end ShellCommand
