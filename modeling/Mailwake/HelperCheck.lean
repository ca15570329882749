import Mailwake.ShellCommand
import Mailwake.Auth

/-!
# The static check of auth helpers

`check_helper_exists_if_practical` guesses from the words of a helper whether a shell would find its
program. How a command is read into words is a parameter; the check sees them without their quotes.
-/
namespace HelperCheck
open ShellCommand DaemonConfig Auth Fallible

def containsShellSyntax (command : Word) : Bool :=
  command.any fun ch =>
    ch ∈ ['\r', '\n', '~', '|', '&', ';', '<', '>', '(', ')', '$', '\x60', '*', '?']

def isEnvAssignment (word : Word) : Bool :=
  match word.dropWhile (fun c => c ≠ '=') with
  | [] => false
  | _ :: _ =>
    match word.takeWhile (fun c => c ≠ '=') with
    | [] => false
    | first :: chars =>
      (first = '_' || first.isAlpha) && chars.all fun ch => ch = '_' || ch.isAlphanum

def firstProgramWord (words : List Word) : Option Word :=
  words.find? fun word => !isEnvAssignment word

def shellBuiltins : List Word :=
  [":", ".", "[", "alias", "bg", "break", "cd", "command", "continue", "eval", "exec", "exit",
    "export", "false", "fg", "getopts", "hash", "jobs", "pwd", "read", "readonly", "return", "set",
    "shift", "test", "times", "trap", "true", "type", "ulimit", "umask", "unalias", "unset"].map
    String.toList

def isShellBuiltin (program : Word) : Bool := program ∈ shellBuiltins

def findOnPath (host : Host) (program : Word) : Option Word :=
  host.path.bind fun path =>
    ((directories path).map fun directory => inDirectory directory program).find? host.executable

section
variable (split : Word → Option (List Word)) (host : Host)

def checkHelperExistsIfPractical (command : Word) : Except CredentialsError Unit :=
  if containsShellSyntax command then .ok ()
  else
    match split command with
    | none => .ok ()
    | some words =>
      match firstProgramWord words with
      | none => .ok ()
      | some program =>
        if containsShellSyntax program then .ok ()
        else if isShellBuiltin program then .ok ()
        else if '/' ∈ program then
          if host.executable program then .ok ()
          else .error (.helper (.helperNotFound (String.ofList program)))
        else if (findOnPath host program).isSome then .ok ()
        else .error (.helper (.helperNotFound (String.ofList program)))

/-- The helper an account must have, if any. -/
def checkAccountHelper (account : AccountConfig) : Option String → Except CredentialsError Unit
  | some command => checkHelperExistsIfPractical split host command.toList
  | none => .error (.missingAuthField account.name account.auth)

def validateAccountHelper (account : AccountConfig) : Except CredentialsError Unit :=
  match account.auth with
  | .xoauth2Cmd => checkAccountHelper split host account account.xoauth2Cmd
  | .passwordCmd => checkAccountHelper split host account account.passwordCmd
  | .password => .ok ()

def validateSourceHelper : SourceConfig → Except CredentialsError Unit
  | .gmailApiPoll source => checkHelperExistsIfPractical split host source.gmailTokenCmd.toList
  | .imapIdle _ | .fsState _ | .systemResume _ => .ok ()

def validateAuthHelpers (config : Config) : Except CredentialsError Unit := do
  config.accounts.forM (validateAccountHelper split host)
  config.sources.forM (validateSourceHelper split host)

end

/-- The helpers that are checked, accounts first. -/
def accountHelper (account : AccountConfig) : Option String :=
  match account.auth with
  | .xoauth2Cmd => account.xoauth2Cmd
  | .passwordCmd => account.passwordCmd
  | .password => none

def sourceHelper : SourceConfig → Option String
  | .gmailApiPoll source => some source.gmailTokenCmd
  | .imapIdle _ | .fsState _ | .systemResume _ => none

def helpers (config : Config) : List String :=
  config.accounts.filterMap accountHelper ++ config.sources.filterMap sourceHelper

variable {read : Word → Option (List Raw)} {shell : Shell} {host : Host} {command program : Word}
  {raws : List Raw} {words : List Word}

/-- Word splitting with quote removal. -/
def splitOf (read : Word → Option (List Raw)) (command : Word) : Option (List Word) :=
  (read command).map fun raws => raws.map unquote

/-- The shell reads the words of the helper and does not find the command in them. -/
def Unrunnable (read : Word → Option (List Raw)) (shell : Shell) (host : Host)
    (command : Word) : Prop :=
  ∃ raws, read command = some raws ∧ misses shell host raws = true

/-- A helper that is rejected cannot be run. -/
def Justified (read : Word → Option (List Raw)) (shell : Shell) (host : Host)
    (command : Word) : Prop :=
  ∀ error, checkHelperExistsIfPractical (splitOf read) host command = .error error →
    Unrunnable read shell host command

/-- The check knows the program neither as a built-in nor as an executable file. -/
structure Unknown (host : Host) (program : Word) : Prop where
  literal : containsShellSyntax program = false
  unlisted : isShellBuiltin program = false
  absent : if '/' ∈ program then host.executable program = false else findOnPath host program = none

/-- The helpers on which the check and the shell differ to the helper's disadvantage. -/
inductive Misjudged (read : Word → Option (List Raw)) (shell : Shell) (host : Host)
    (command : Word) : Prop where
  /-- The helper is negated, no program on the path is called `!`, and the shell finds the negated
  command, or there is none. -/
  | negated (raws : List Raw) : containsShellSyntax command = false →
      read command = some (bang :: raws) → findOnPath host ['!'] = none →
      misses shell host (bang :: raws) = false → Misjudged read shell host command
  /-- The command is not listed and not on the path of the daemon, but it is a built-in of the
  shell or on the path that the shell searches. -/
  | searched (raws : List Raw) (program : Word) : containsShellSyntax command = false →
      read command = some raws → raws.head? ≠ some bang → name raws = some program →
      isEnvAssignment program = false → Unknown host program → '/' ∉ program →
      (shell.builtin program = true ∨
        onPath host (searchedPath shell host raws) program = true) →
      Misjudged read shell host command
  /-- The command has the form of an assignment, but for its quotes; the check looks for a later
  word instead. -/
  | quoted (raws : List Raw) (program other : Word) : containsShellSyntax command = false →
      read command = some raws → raws.head? ≠ some bang → name raws = some program →
      isEnvAssignment program = true →
      firstProgramWord (raws.map unquote) = some other → Unknown host other →
      finds shell host (searchedPath shell host raws) program = true →
      Misjudged read shell host command

theorem isEnvAssignment_append {name value : Word} (clean : '=' ∉ name) :
    isEnvAssignment (name ++ '=' :: value) = isName name := by
  have each : ∀ c ∈ name, decide (c ≠ '=') = true := by
    intro c mem
    simp only [decide_eq_true_eq]
    rintro rfl
    exact clean mem
  have before : (name ++ '=' :: value).takeWhile (fun c => c ≠ '=') = name := by
    rw [List.takeWhile_append_of_pos each]
    simp
  have after : (name ++ '=' :: value).dropWhile (fun c => c ≠ '=') = '=' :: value := by
    rw [List.dropWhile_append_of_pos each]
    simp
  rw [isEnvAssignment, after, before]
  cases name with
  | nil => rfl
  | cons first rest => simp only [isName, Bool.or_comm]

/-- What the shell takes for an assignment, the check does too. -/
theorem isEnvAssignment_of_assignment {raw : Raw} (h : (assignment raw).isSome = true) :
    isEnvAssignment (unquote raw) = true := by
  obtain ⟨pair, found⟩ := Option.isSome_iff_exists.mp h
  obtain ⟨⟨before, rest⟩, split, named⟩ := Option.bind_eq_some_iff.mp found
  obtain ⟨whole, clean⟩ := unquote_of_splitAssignment split
  rw [whole, isEnvAssignment_append clean]
  split at named
  · assumption
  · cases named

theorem firstProgramWord_bang (raws : List Raw) :
    firstProgramWord ((bang :: raws).map unquote) = some ['!'] := by
  simp [firstProgramWord, isEnvAssignment, bang, unquote, Piece.text]

theorem name_plain (plain : raws.head? ≠ some bang) :
    name raws = (raws.find? fun raw => !(assignment raw).isSome).map unquote := by
  rw [name, withoutBang, if_neg plain]

/-- Without a negation, the word that the shell takes for the command is the one the check looks
at, unless the check takes it for an assignment. -/
theorem firstProgramWord_of_name (plain : raws.head? ≠ some bang)
    (called : name raws = some program) (other : isEnvAssignment program = false) :
    firstProgramWord (raws.map unquote) = some program := by
  rw [name_plain plain] at called
  obtain ⟨raw, found, rfl⟩ := Option.map_eq_some_iff.mp called
  obtain ⟨-, before, after, rfl, skipped⟩ := List.find?_eq_some_iff_append.mp found
  rw [firstProgramWord, List.map_append, List.map_cons]
  refine List.find?_eq_some_iff_append.mpr ⟨by simpa using other, before.map unquote, _, rfl, ?_⟩
  intro text mem
  obtain ⟨word, hw, rfl⟩ := List.mem_map.mp mem
  rw [isEnvAssignment_of_assignment (by simpa using skipped word hw)]
  rfl

/-- Where the check looks at a word, the shell has a command. -/
theorem name_of_firstProgramWord (plain : raws.head? ≠ some bang)
    (first : firstProgramWord (raws.map unquote) = some program) :
    ∃ command, name raws = some command := by
  obtain ⟨text, mem, other⟩ : ∃ text ∈ raws.map unquote, isEnvAssignment text = false := by
    refine ⟨program, List.mem_of_find?_eq_some first, ?_⟩
    simpa using List.find?_some first
  obtain ⟨raw, hraw, rfl⟩ := List.mem_map.mp mem
  have skips : (!(assignment raw).isSome) = true := by
    cases taken : (assignment raw).isSome with
    | false => rfl
    | true =>
      rw [isEnvAssignment_of_assignment taken] at other
      cases other
  have some' : (raws.find? fun raw => !(assignment raw).isSome).isSome = true :=
    List.find?_isSome.mpr ⟨raw, hraw, skips⟩
  obtain ⟨word, found⟩ := Option.isSome_iff_exists.mp some'
  exact ⟨unquote word, by rw [name_plain plain, found]; rfl⟩

variable {split : Word → Option (List Word)}

/-- A helper is rejected for its first program word. -/
theorem check_eq_error {error : CredentialsError} :
    checkHelperExistsIfPractical split host command = .error error ↔
      containsShellSyntax command = false ∧ ∃ words program, split command = some words ∧
        firstProgramWord words = some program ∧ Unknown host program ∧
        error = .helper (.helperNotFound (String.ofList program)) := by
  constructor
  · intro h
    rw [checkHelperExistsIfPractical] at h
    split at h
    · cases h
    rename_i literal
    split at h
    · cases h
    rename_i words given
    split at h
    · cases h
    rename_i program first
    split at h
    · cases h
    rename_i plain
    split at h
    · cases h
    rename_i unlisted
    refine ⟨by simpa using literal, words, program, given, first, ⟨by simpa using plain,
      by simpa using unlisted, ?_⟩, ?_⟩
    · split at h
      · rename_i slash
        rw [if_pos slash]
        split at h
        · cases h
        · rename_i absent
          simpa using absent
      · rename_i slash
        rw [if_neg slash]
        split at h
        · cases h
        · rename_i absent
          simpa using absent
    · split at h <;> split at h <;> cases h <;> rfl
  · rintro ⟨literal, words, program, given, first, ⟨plain, unlisted, absent⟩, rfl⟩
    simp only [checkHelperExistsIfPractical, literal, given, first, plain, unlisted]
    split at absent
    · rename_i slash
      simp [slash, absent]
    · rename_i slash
      simp [slash, absent]

/-- The words of a helper that is rejected, as the shell reads them. -/
theorem rejected_iff {error : CredentialsError} :
    checkHelperExistsIfPractical (splitOf read) host command = .error error ↔
      containsShellSyntax command = false ∧ ∃ raws program, read command = some raws ∧
        firstProgramWord (raws.map unquote) = some program ∧ Unknown host program ∧
        error = .helper (.helperNotFound (String.ofList program)) := by
  rw [check_eq_error]
  constructor
  · rintro ⟨literal, words, program, given, rest⟩
    obtain ⟨raws, reads, rfl⟩ := Option.map_eq_some_iff.mp given
    exact ⟨literal, raws, program, reads, rest⟩
  · rintro ⟨literal, raws, program, reads, rest⟩
    exact ⟨literal, raws.map unquote, program, Option.map_eq_some_iff.mpr ⟨raws, reads, rfl⟩, rest⟩

theorem misses_eq (called : name raws = some program) :
    misses shell host raws = !finds shell host (searchedPath shell host raws) program := by
  rw [misses, called]
  rfl

/-- A helper that is rejected although the shell finds its command is not justified. -/
theorem not_justified_of_found (literal : containsShellSyntax command = false)
    (reads : read command = some raws)
    (first : firstProgramWord (raws.map unquote) = some program) (unknown : Unknown host program)
    (found : misses shell host raws = false) : ¬ Justified read shell host command := by
  intro justified
  obtain ⟨others, same, missed⟩ :=
    justified _ (rejected_iff.mpr ⟨literal, raws, program, reads, first, unknown, rfl⟩)
  rw [reads, Option.some.injEq] at same
  rw [same, missed] at found
  cases found

theorem not_justified_of_misjudged (misjudged : Misjudged read shell host command) :
    ¬ Justified read shell host command := by
  cases misjudged with
  | negated raws literal reads absent found =>
    have unknown : Unknown host ['!'] := ⟨by decide, by decide, by rwa [if_neg (by decide)]⟩
    exact not_justified_of_found literal reads (firstProgramWord_bang raws) unknown found
  | searched raws program literal reads plain called other unknown unslashed found =>
    refine not_justified_of_found literal reads (firstProgramWord_of_name plain called other)
      unknown ?_
    rw [misses_eq called, finds, if_neg unslashed, Bool.not_eq_false']
    exact (Bool.or_eq_true _ _).mpr found
  | quoted raws program other literal reads plain called form first unknown found =>
    refine not_justified_of_found literal reads first unknown ?_
    rw [misses_eq called, found]
    rfl

/-- The three ways in which a rejected helper can be found by the shell. -/
theorem misjudged_of_found (literal : containsShellSyntax command = false)
    (reads : read command = some raws)
    (first : firstProgramWord (raws.map unquote) = some program) (unknown : Unknown host program)
    (found : misses shell host raws = false) : Misjudged read shell host command := by
  by_cases negated : raws.head? = some bang
  · obtain ⟨rest, rfl⟩ : ∃ rest, raws = bang :: rest := by
      cases raws with
      | nil => cases negated
      | cons first rest => exact ⟨rest, by rw [Option.some.inj negated]⟩
    have same : program = ['!'] := Option.some.inj (first.symm.trans (firstProgramWord_bang rest))
    have absent := unknown.absent
    rw [same, if_neg (by decide)] at absent
    exact .negated rest literal reads absent found
  · obtain ⟨name, called⟩ := name_of_firstProgramWord negated first
    rw [misses_eq called, Bool.not_eq_false'] at found
    cases form : isEnvAssignment name with
    | true => exact .quoted raws name program literal reads negated called form first unknown found
    | false =>
      have same : program = name :=
        Option.some.inj (first.symm.trans (firstProgramWord_of_name negated called form))
      subst same
      have absent := unknown.absent
      by_cases slash : '/' ∈ program
      · rw [finds, if_pos slash] at found
        rw [if_pos slash, found] at absent
        cases absent
      · rw [finds, if_neg slash] at found
        exact .searched raws program literal reads negated called form unknown slash
          ((Bool.or_eq_true _ _).mp found)

/-- A rejected helper is one that the shell cannot run, except for the misjudged ones. -/
theorem justified_iff :
    Justified read shell host command ↔ ¬ Misjudged read shell host command := by
  constructor
  · intro justified misjudged
    exact not_justified_of_misjudged misjudged justified
  · intro fair error h
    obtain ⟨literal, raws, program, reads, first, unknown, -⟩ := rejected_iff.mp h
    refine ⟨raws, reads, ?_⟩
    by_contra found
    rw [Bool.not_eq_true] at found
    exact fair (misjudged_of_found literal reads first unknown found)

/-- A configuration is rejected for one of its helpers, or for a field that is missing. -/
theorem helper_of_error {config : Config} {program : String}
    (h : validateAuthHelpers split host config = .error (.helper (.helperNotFound program))) :
    ∃ command ∈ helpers config, checkHelperExistsIfPractical split host command.toList =
      .error (.helper (.helperNotFound program)) := by
  rcases then_error h with accounts | sources
  · obtain ⟨account, mem, failed⟩ := forM_error accounts
    obtain ⟨command, given, failed⟩ : ∃ command, accountHelper account = some command ∧
        checkHelperExistsIfPractical split host command.toList =
          .error (.helper (.helperNotFound program)) := by
      rw [validateAccountHelper] at failed
      rw [accountHelper]
      cases auth : account.auth with
      | xoauth2Cmd =>
        rw [auth] at failed
        cases given : account.xoauth2Cmd with
        | none => simp [checkAccountHelper, given] at failed
        | some command => exact ⟨command, rfl, by simpa [checkAccountHelper, given] using failed⟩
      | passwordCmd =>
        rw [auth] at failed
        cases given : account.passwordCmd with
        | none => simp [checkAccountHelper, given] at failed
        | some command => exact ⟨command, rfl, by simpa [checkAccountHelper, given] using failed⟩
      | password =>
        rw [auth] at failed
        cases failed
    exact ⟨command, List.mem_append_left _ (List.mem_filterMap.mpr ⟨account, mem, given⟩), failed⟩
  · obtain ⟨source, mem, failed⟩ := forM_error sources
    cases source with
    | gmailApiPoll source =>
      exact ⟨source.gmailTokenCmd, List.mem_append_right _ (List.mem_filterMap.mpr
        ⟨.gmailApiPoll source, mem, rfl⟩), failed⟩
    | imapIdle | fsState | systemResume => cases failed

section Failing

private def dash : Shell :=
  ⟨fun program => program ∈ ["echo", "printf", "kill", "wait"].map String.toList, "/bin".toList⟩

/-- One token program outside the path of the daemon, and one with an odd name on it. -/
private def tokenHost : Host :=
  ⟨some "/usr/bin".toList,
    fun file => file ∈ ["/opt/bin/token", "/usr/bin/A=b"].map String.toList⟩

private def runnableHelpers : List Word :=
  ["printf token", "! /opt/bin/token", "PATH=/opt/bin token", "'A=b' token"].map String.toList

/-- A quoted `!` is no negation: the check is right to reject it. -/
example : misses dash tokenHost [[.quoted ['!']], [.plain 'x']] = true := by decide +kernel

end Failing

end HelperCheck
