import LanguageClient.Lifecycle

/-! # Command lines for the system shell.

The server is started through the shell, which replaces itself by the server
(`exec`), so that the process started is the server. Every word is put
between single quotes, where the shell leaves everything alone; a single
quote inside a word leaves the quotes, is written between double quotes, and
enters them again. -/

namespace LanguageClient

structure Launch where
  executable : String
  args : List String
  deriving DecidableEq, Repr

namespace Launch

def debugFlag : String := "--debug"

def ofMode (mode : LaunchMode) (executable : String) : Launch :=
  match mode with
  | .run => ⟨executable, []⟩
  | .debug => ⟨executable, [debugFlag]⟩

def text (l : Launch) : String := String.intercalate " " (l.executable :: l.args)

end Launch

namespace Shell

/-- How one character of a word is written inside single quotes. -/
def quoteChar (c : Char) : List Char :=
  if c = '\x27' then ['\x27', '\x22', '\x27', '\x22', '\x27'] else [c]

def quoteWord (w : List Char) : List Char := '\x27' :: w.flatMap quoteChar ++ ['\x27']

def joinWords : List (List Char) → List Char
  | [] => []
  | [w] => w
  | w :: ws => w ++ ' ' :: joinWords ws

/-- The script that replaces the shell by a program with arguments. -/
def script (executable : List Char) (args : List (List Char)) : List Char :=
  joinWords ("exec".toList :: quoteWord executable :: args.map quoteWord)

def shellPath : String := "/bin/sh"

/-- The shell and the arguments that make it run a program. -/
def command (os executable : String) (args : List String) : String × List String :=
  if os = "windows" then ("cmd.exe", "/D" :: "/C" :: executable :: args)
  else
    (shellPath,
      ["-c", String.ofList (script executable.toList (args.map String.toList))])

end Shell

end LanguageClient
