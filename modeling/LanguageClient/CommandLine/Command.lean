import LanguageClient.CommandLine.Flag

/-! # Commands.

The commands form a tree below the program itself, and are known by the path
of names that leads to them. A command that is not runnable shows its help. -/

namespace LanguageClient.CommandLine

inductive Action where
  | resolve
  | provision
  | run
  | configShow
  | configPath
  | version
  | help
  /-- Writes a completion script. -/
  | completion
  deriving DecidableEq, Repr

structure Command where
  /-- The names that lead to it, without that of the program. -/
  path : List String
  /-- How its arguments are written in its help. -/
  operands : String := ""
  short : String
  long : String := ""
  flags : List Flag := []
  action : Option Action := none
  /-- Whether it takes arguments. -/
  takesArguments : Bool := true
  /-- Whether its help says that it takes flags. -/
  mentionsFlags : Bool := true

def programName : String := "gbnf-client"

def globalFlags : List Flag :=
  [{ name := "config", kind := .text, usage := "Config file path (default is the per-user gbnf-client/config.yaml)" },
    { name := "debug", kind := .switch, usage := "Enable debug logging" },
    { name := "install-root", kind := .text, usage := "Directory holding the server binary cache" },
    { name := "base-name", kind := .text, usage := "Base name of the server binary" },
    { name := "release-url", kind := .text, usage := "Base URL of the release downloads" },
    { name := "server-version", kind := .text, usage := "Server release version, overriding the manifest" },
    { name := "start-timeout", kind := .duration, usage := "How long to wait for the server to initialize" }]

def rootCommand : Command :=
  { path := []
    short := "GBNF language server client"
    long := "gbnf-client locates, downloads and supervises the GBNF language server
for the current platform and connects to it over stdio.

Grammar files passed to 'run' are opened on the server and its log
messages and diagnostics are printed to the output channel." }

/-- The flag of the commands that write completion scripts. -/
def noDescriptions : Flag :=
  { name := "no-descriptions", kind := .switch, usage := "disable completion descriptions" }

/-- The commands, in the order in which they were added. -/
def commands : List Command :=
  [rootCommand,
    { path := ["resolve"]
      short := "Show which server binary this platform uses"
      long := "Print the platform tag, the canonical binary name and the cache path
of the language server binary for this machine, and the manifest the
server version is read from. Nothing is downloaded."
      action := some .resolve, takesArguments := false },
    { path := ["provision"]
      short := "Download the server binary for this platform if it is missing"
      long := "Make sure the language server binary for this platform is in the cache
and executable, downloading the release named by the manifest (or by
--server-version) when it is not."
      action := some .provision, takesArguments := false },
    { path := ["run"]
      operands := "[grammar files...]"
      short := "Start the language server and open grammar files on it"
      long := "Resolve and provision the language server for this platform, start it,
and open the given grammar files. Server log messages and diagnostics
are printed until the command is interrupted.

Examples:
  gbnf-client run json.gbnf              # Watch diagnostics until Ctrl+C
  gbnf-client run --once *.gbnf          # Print diagnostics and exit
  gbnf-client run --debug-server --tui   # Debug launch with a status view"
      flags :=
        [{ name := "debug-server", kind := .switch
           usage := "Launch the server with its debug configuration" },
          { name := "tui", kind := .switch, usage := "Show a live status view" },
          { name := "once", kind := .switch, usage := "Exit after the opened files have been processed" },
          { name := "watch", kind := .switch, initially := true
            usage := "Forward on-disk edits of opened files to the server" }]
      action := some .run },
    { path := ["config"]
      short := "Inspect configuration settings"
      long := "Inspect the effective gbnf-client configuration.

Values come from command-line flags, GBNF_* environment variables and
the YAML config file, in that order of precedence, on top of built-in
defaults." },
    { path := ["config", "show"]
      short := "Show the effective configuration and where each value came from"
      action := some .configShow, takesArguments := false },
    { path := ["config", "path"]
      short := "Show configuration file path"
      action := some .configPath, takesArguments := false },
    { path := ["version"]
      short := "Print version information"
      action := some .version, takesArguments := false },
    { path := ["help"]
      operands := "[command]"
      short := "Help about any command"
      long := "Help provides help for any command in the application.
Simply type gbnf-client help [path to command] for full details."
      action := some .help },
    { path := ["completion"]
      short := "Generate the autocompletion script for the specified shell"
      long := "Generate the autocompletion script for gbnf-client for the specified shell.
See each sub-command's help for details on how to use the generated script."
      takesArguments := false },
    { path := ["completion", "bash"]
      short := "Generate the autocompletion script for bash"
      long := "Generate the autocompletion script for the bash shell.

This script depends on the 'bash-completion' package.
If it is not installed already, you can install it via your OS's package manager.

To load completions in your current shell session:

	source <(gbnf-client completion bash)

To load completions for every new session, execute once:

#### Linux:

	gbnf-client completion bash > /etc/bash_completion.d/gbnf-client

#### macOS:

	gbnf-client completion bash > $(brew --prefix)/etc/bash_completion.d/gbnf-client

You will need to start a new shell for this setup to take effect."
      flags := [noDescriptions]
      action := some .completion, takesArguments := false, mentionsFlags := false },
    { path := ["completion", "zsh"]
      short := "Generate the autocompletion script for zsh"
      long := "Generate the autocompletion script for the zsh shell.

If shell completion is not already enabled in your environment you will need
to enable it.  You can execute the following once:

	echo \"autoload -U compinit; compinit\" >> ~/.zshrc

To load completions in your current shell session:

	source <(gbnf-client completion zsh)

To load completions for every new session, execute once:

#### Linux:

	gbnf-client completion zsh > \"$\x7bfpath[1]\x7d/_gbnf-client\"

#### macOS:

	gbnf-client completion zsh > $(brew --prefix)/share/zsh/site-functions/_gbnf-client

You will need to start a new shell for this setup to take effect."
      flags := [noDescriptions]
      action := some .completion, takesArguments := false },
    { path := ["completion", "fish"]
      short := "Generate the autocompletion script for fish"
      long := "Generate the autocompletion script for the fish shell.

To load completions in your current shell session:

	gbnf-client completion fish | source

To load completions for every new session, execute once:

	gbnf-client completion fish > ~/.config/fish/completions/gbnf-client.fish

You will need to start a new shell for this setup to take effect."
      flags := [noDescriptions]
      action := some .completion, takesArguments := false },
    { path := ["completion", "powershell"]
      short := "Generate the autocompletion script for powershell"
      long := "Generate the autocompletion script for powershell.

To load completions in your current shell session:

	gbnf-client completion powershell | Out-String | Invoke-Expression

To load completions for every new session, add the output of the above command
to your powershell profile."
      flags := [noDescriptions]
      action := some .completion, takesArguments := false }]

namespace Command

def name (c : Command) : String := c.path.getLastD programName

def fullName (c : Command) : String := String.intercalate " " (programName :: c.path)

/-- The commands below a command. -/
def children (c : Command) : List Command :=
  commands.filter fun d => d.path ≠ [] && d.path.dropLast = c.path

def isRunnable (c : Command) : Bool := c.action.isSome

/-- Whether a command is offered to those who look for one. -/
def isOffered (c : Command) : Bool := c.action ≠ some .help

/-- The flags a command knows before it is run. -/
def knownFlags (c : Command) : List Flag := c.flags ++ globalFlags

def helpFlag (c : Command) : Flag :=
  { name := "help", letter := some 'h', kind := .switch, usage := "help for " ++ c.name }

def versionFlag : Flag :=
  { name := "version", letter := some 'v', kind := .switch, usage := "version for " ++ programName }

/-- The flags that are a command's own. The program itself owns those of all
commands. -/
def ownFlags (c : Command) : List Flag :=
  if c.path = [] then c.flags ++ globalFlags ++ [c.helpFlag, versionFlag] else c.flags ++ [c.helpFlag]

/-- The flags a command takes over from the program. -/
def inheritedFlags (c : Command) : List Flag := if c.path = [] then [] else globalFlags

/-- All flags of a command that is run. -/
def allFlags (c : Command) : List Flag := c.ownFlags ++ c.inheritedFlags

end Command

/-! ### Finding a command -/

/-- How many letters have to be inserted, removed or replaced to get from one
row of a word to the next: the distances of a word's beginnings, given those
for one letter less of the other word. -/
def nextRow (a : UInt8) : Nat → Nat → List UInt8 → List Nat → List Nat
  | _, _, [], _ => []
  | _, _, _, [] => []
  | left, diagonal, b :: bs, above :: rest =>
    let d := if a = b then diagonal else 1 + min (min left above) diagonal
    d :: nextRow a d above bs rest

/-- The number of letters that have to be inserted, removed or replaced to get
from one word to another. -/
def distance (s t : Bytes) : Nat :=
  let first := List.range (t.length + 1)
  let last := s.foldl
    (fun row a => (row.headD 0 + 1) :: nextRow a (row.headD 0 + 1) (row.headD 0) t row.tail) first
  last.getLastD 0

/-- How far a word may be from the name of a command that is suggested for it. -/
def maxDistance : Nat := 2

/-- The commands that may have been meant by a word. -/
def suggestions (c : Command) (word : String) : List String :=
  let typed := utf8 (Text.lower word)
  (c.children.filter fun d =>
    let name := utf8 (Text.lower d.name)
    d.isOffered && (distance typed name ≤ maxDistance || typed.isPrefixOf name)).map Command.name

def unknownCommand (c : Command) (word : String) : String :=
  "unknown command " ++ Text.quote word ++ " for " ++ Text.quote c.fullName

/-- The command that words lead to, starting from another one, and the words
that are left. -/
def findFrom : Nat → Command → List String → Command × List String
  | 0, c, words => (c, words)
  | fuel + 1, c, words =>
    match withoutFlags c.knownFlags words with
    | [] => (c, words)
    | next :: _ =>
      match c.children.find? (·.name = next) with
      | some d => findFrom fuel d (eraseWord c.knownFlags next words)
      | none => (c, words)

/-- The command that words lead to. Only the program itself minds words that
are no commands. -/
def findCommand (words : List String) : Except Error (Command × List String) :=
  let (c, left) := findFrom (words.length + 1) rootCommand words
  match c.path, withoutFlags c.knownFlags left with
  | [], word :: _ =>
    let meant := match suggestions c word with
      | [] => ""
      | names => "\n\nDid you mean this?\n" ++ String.join (names.map fun n => "\t" ++ n ++ "\n")
    .error (.plain (unknownCommand c word ++ meant))
  | _, _ => .ok (c, left)

end LanguageClient.CommandLine
