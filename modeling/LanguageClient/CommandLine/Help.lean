import LanguageClient.CommandLine.Command

/-! # Help.

The help of a command says what it does, how it is used, and which commands
and flags it has, in the order of their names. -/

namespace LanguageClient.CommandLine

def FlagKind.word : FlagKind → String
  | .text => " string"
  | .switch => ""
  | .duration => " duration"

def Flag.left (f : Flag) : String :=
  (match f.letter with
    | some c => "  -" ++ String.singleton c ++ ", --" ++ f.name
    | none => "      --" ++ f.name) ++ f.kind.word

def Flag.right (f : Flag) : String := f.usage ++ (if f.initially then " (default true)" else "")

/-- A text with blanks behind it, up to a width. -/
def padded (width : Nat) (s : String) : String :=
  s ++ String.ofList (List.replicate (width - s.length) ' ')

def flagLines (flags : List Flag) : String :=
  let flags := flags.mergeSort fun a b => decide (a.name ≤ b.name)
  let width := (flags.map fun f => f.left.length).foldl max 0
  String.intercalate "\n" (flags.map fun f => padded (width + 3) f.left ++ f.right)

/-- The least width of the column with the names of commands. -/
def nameWidth : Nat := 11

namespace Command

def useLine (c : Command) : String :=
  String.intercalate " " (c.fullName :: (if c.operands = "" then [] else [c.operands]) ++
    (if c.mentionsFlags then ["[flags]"] else []))

def usage (c : Command) : String :=
  let children := c.children.mergeSort fun a b => decide (a.name ≤ b.name)
  "Usage:" ++ (if c.isRunnable then "\n  " ++ c.useLine else "") ++
    (if children.isEmpty then ""
    else
      "\n  " ++ c.fullName ++ " [command]\n\nAvailable Commands:" ++
        String.join (children.map fun d => "\n  " ++ padded nameWidth d.name ++ " " ++ d.short)) ++
    "\n\nFlags:\n" ++ flagLines c.ownFlags ++
    (if c.inheritedFlags.isEmpty then "" else "\n\nGlobal Flags:\n" ++ flagLines c.inheritedFlags) ++
    (if children.isEmpty then ""
    else "\n\nUse \"" ++ c.fullName ++ " [command] --help\" for more information about a command.") ++
    "\n"

def help (c : Command) : String :=
  (if c.long = "" then c.short else c.long) ++ "\n\n" ++ c.usage

end Command

/-- The help for a topic, which is the words that lead to a command. -/
def helpFor (topic : List String) : String :=
  match findCommand topic with
  | .ok (c, _) => c.help
  | .error _ =>
    "Unknown help topic [" ++
      String.intercalate " " (topic.map fun s => if s.contains '\x60' then Text.quote s else "\x60" ++ s ++ "\x60") ++
      "]\n" ++ rootCommand.usage

end LanguageClient.CommandLine
