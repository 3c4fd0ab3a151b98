import LanguageClient.Shell.Command
import LanguageClient.Shell.Machine

/-! # What the shell makes of a launch script.

A launch script is `exec` and the words to be launched, each between quotes.
Reading one quoted word gives back its characters, all of them quoted
(`reads_quoteWord`), whatever was read before; so the script is one simple
command with these words and nothing else:

* `script_tokens`     — the script has no tokens but its words;
* `parse?_script`     — it is one simple command without redirections;
* `expand_quotedWord` — and none of its words is changed by being expanded.

`launch_runs_unchanged` puts them together. -/

namespace LanguageClient.Shell

/-! ### Words -/

/-- The pieces that one character between single quotes is read as. A single
quote is written outside of them, between double quotes. -/
def quotedPieces (c : Char) : Word :=
  if c = '\x27' then [.quotes, .char c true, .quotes] else [.char c true]

/-- The word that a quoted text is read as. -/
def quotedWord (w : List Char) : Word := .quotes :: w.flatMap quotedPieces

/-- Whether a shell takes a piece as it is: a character that stands in quotes,
or the quotes themselves. -/
def Piece.isLiteral : Piece → Bool
  | .quotes | .char _ true => true
  | _ => false

/-- The text of a word without its quotes; `none` if something in it is to be
expanded. -/
def unquote? : Word → Option (List Char)
  | [] => some []
  | .quotes :: ps => unquote? ps
  | .char c _ :: ps => (unquote? ps).map (c :: ·)
  | .parameter _ _ :: _ | .substitution _ _ :: _ => none

theorem isLiteral_of_mem_quotedWord {w : List Char} {p : Piece} (h : p ∈ quotedWord w) :
    p.isLiteral = true := by
  rcases List.mem_cons.mp h with rfl | h
  · rfl
  · obtain ⟨c, _, hp⟩ := List.mem_flatMap.mp h
    unfold quotedPieces at hp
    split at hp
    · simp only [List.mem_cons, List.not_mem_nil, or_false] at hp
      rcases hp with rfl | rfl | rfl <;> rfl
    · rw [List.mem_singleton.mp hp]
      rfl

/-- Quotes are all that quoting adds. -/
theorem unquote?_quotedWord (w : List Char) : unquote? (quotedWord w) = some w := by
  rw [quotedWord, unquote?]
  induction w with
  | nil => rfl
  | cons c w ih =>
      rw [List.flatMap_cons, quotedPieces]
      split <;> simp only [List.cons_append, List.nil_append, unquote?, ih, Option.map_some]

/-! ### Reading -/

/-- These characters are read as one word wherever a word can begin. -/
def Reads (source : List Char) (w : Word) : Prop :=
  ∀ line tokens, source.foldl Reader.step ⟨.plain, line, none, tokens⟩ =
    ⟨.plain, line, some w.reverse, tokens⟩

/-- One character of a quoted text, between the single quotes. -/
theorem foldl_quoteChar (c : Char) (line : Nat) (ps : Word) (tokens : List Token) :
    (quoteChar c).foldl Reader.step ⟨.single, line, some ps, tokens⟩ =
      ⟨.single, line, some ((quotedPieces c).reverse ++ ps), tokens⟩ := by
  unfold quoteChar quotedPieces
  split
  · next hc =>
      subst hc
      rfl
  · next hc => simp [Reader.step, Reader.push, hc]

/-- Between single quotes every character is read as itself. -/
theorem foldl_quoteChars (w : List Char) (line : Nat) (ps : Word) (tokens : List Token) :
    (w.flatMap quoteChar).foldl Reader.step ⟨.single, line, some ps, tokens⟩ =
      ⟨.single, line, some ((w.flatMap quotedPieces).reverse ++ ps), tokens⟩ := by
  induction w generalizing ps with
  | nil => rfl
  | cons c w ih =>
      rw [List.flatMap_cons, List.foldl_append, foldl_quoteChar, ih, List.flatMap_cons,
        List.reverse_append, List.append_assoc]

/-- **A quoted word is read as its characters**, each of them quoted. -/
theorem reads_quoteWord (w : List Char) : Reads (quoteWord w) (quotedWord w) := by
  intro line tokens
  -- The first quote opens the word, and the last one leaves it open for more.
  have hopen : Reader.step ⟨.plain, line, none, tokens⟩ '\x27' =
      ⟨.single, line, some [.quotes], tokens⟩ := rfl
  have hclose : ∀ ps, Reader.step ⟨.single, line, ps, tokens⟩ '\x27' =
      ⟨.plain, line, ps, tokens⟩ := fun _ => rfl
  rw [quoteWord, List.cons_append, List.foldl_cons, hopen, List.foldl_append, foldl_quoteChars,
    List.foldl_cons, hclose, List.foldl_nil, quotedWord, List.reverse_cons]

/-- The word that every script begins with, outside of quotes. -/
def execWord : Word := "exec".toList.map (.char · false)

theorem reads_exec : Reads "exec".toList execWord := by
  intro line tokens
  simp [execWord, Reader.step, Reader.plainStep, Reader.push]

/-! ### Tokens -/

theorem joinWords_cons (w : List Char) (ws : List (List Char)) :
    joinWords (w :: ws) = w ++ ws.flatMap (' ' :: ·) := by
  induction ws generalizing w with
  | nil => rw [joinWords, List.flatMap_nil, List.append_nil]
  | cons v ws ih =>
      rw [joinWords, ih v, List.flatMap_cons, List.cons_append]
      exact List.cons_ne_nil v ws

/-- A blank ends the word that was read before it. -/
theorem step_blank (line : Nat) (w : Word) (tokens : List Token) :
    Reader.step ⟨.plain, line, some w.reverse, tokens⟩ ' ' =
      ⟨.plain, line, none, .word line w :: tokens⟩ := by
  simp [Reader.step, Reader.plainStep, Reader.endWord]

/-- **Quoted words behind a word are the tokens behind its token.** -/
theorem finish_quoteWords (args : List (List Char)) (line : Nat) (w : Word) (tokens : List Token) :
    (((args.map quoteWord).flatMap (' ' :: ·)).foldl Reader.step
        ⟨.plain, line, some w.reverse, tokens⟩).finish =
      some (tokens.reverse ++ (w :: args.map quotedWord).map (.word line)) := by
  induction args generalizing w tokens with
  | nil => simp [Reader.finish, Reader.endWord]
  | cons a args ih =>
      rw [List.map_cons, List.flatMap_cons, List.cons_append, List.foldl_cons, step_blank,
        List.foldl_append, reads_quoteWord, ih, List.reverse_cons, List.append_assoc]
      rfl

/-- **A script has no tokens but its words**: no operator, and no comment cut
anything off. -/
theorem script_tokens (executable : List Char) (args : List (List Char)) :
    tokens? (script executable args) =
      some ((execWord :: (executable :: args).map quotedWord).map (.word 1)) := by
  rw [tokens?, script, ← List.map_cons, joinWords_cons, List.foldl_append, reads_exec,
    finish_quoteWords, List.reverse_nil, List.nil_append]

/-! ### Commands -/

theorem simpleParts_words (line : Nat) (ws : List Word) :
    simpleParts (ws.map (.word line)) = (ws, [], []) := by
  induction ws with
  | nil => rfl
  | cons w ws ih => rw [List.map_cons, simpleParts, ih]

/-- Words that begin with `exec`, which is no reserved word, are a simple
command. -/
theorem parseCommand_words (fuel line : Nat) (ws : List Word) :
    parseCommand (fuel + 1) ((execWord :: ws).map (.word line)) =
      some (.simple line (execWord :: ws) [], []) := by
  have hreserved : reserved? ((execWord :: ws).map (.word line)) = some "exec" := by
    rw [List.map_cons, reserved?]
    decide
  rw [parseCommand]
  · rw [simpleParts_words]
    rfl
  all_goals
    simp only [hreserved, Option.some.injEq, String.reduceEq, false_implies, implies_true]

/-- A list of commands that nothing ends and that is one command is just that. -/
theorem parseList_words (fuel line : Nat) (ws : List Word) :
    parseList (fuel + 3) [] ((execWord :: ws).map (.word line)) =
      some (.sequence (.simple line (execWord :: ws) []) .nothing, []) := by
  have hchain : parseChain (fuel + 2) ((execWord :: ws).map (.word line)) =
      some (.simple line (execWord :: ws) [], []) := by
    rw [parseChain, parseCommand_words]
    rfl
  have hstop : ¬ ((reserved? ((execWord :: ws).map (.word line))).any [].contains = true) := by
    cases reserved? ((execWord :: ws).map (.word line)) <;> simp
  simp only [List.map_cons] at hchain hstop ⊢
  rw [parseList]
  simp only [skipSeparators]
  rw [if_neg hstop, hchain]
  rfl

/-- **A script is one simple command**, without redirections. -/
theorem parse?_script (executable : List Char) (args : List (List Char)) :
    parse? (script executable args) =
      some (.sequence (.simple 1 (execWord :: (executable :: args).map quotedWord) []) .nothing) := by
  rw [parse?, script_tokens]
  simp only [Option.bind_eq_bind, Option.bind_some, parseList_words]

/-! ### Expansion -/

namespace Machine

/-- A quoted word expands to the text that was quoted. -/
theorem expandPieces_quotedPieces (m : Machine) (w : List Char) (s : String) :
    m.expandPieces (some s) (w.flatMap quotedPieces) = [s ++ String.ofList w] := by
  induction w generalizing s with
  | nil => simp [expandPieces]
  | cons c w ih =>
      have hcons : s ++ String.ofList (c :: w) = s ++ String.singleton c ++ String.ofList w := by
        rw [String.ofList_cons, String.append_assoc]
      rw [List.flatMap_cons, quotedPieces, hcons]
      split <;> simp only [List.cons_append, List.nil_append, expandPieces, Option.getD_some, ih]

/-- A quoted word expands to its text, whatever the text says. -/
theorem expand_quotedWord (m : Machine) (w : List Char) :
    m.expand (quotedWord w) = [String.ofList w] := by
  have hne : quotedWord w ≠ [.quotes, .parameter "@" true] := by
    intro h
    have hp : Piece.parameter "@" true ∈ quotedWord w := by rw [h]; simp
    exact absurd (isLiteral_of_mem_quotedWord hp) (by decide)
  rw [expand, if_neg hne, quotedWord, expandPieces, expandPieces_quotedPieces]
  simp

theorem expand_execWord (m : Machine) : m.expand execWord = ["exec"] := by
  rw [expand, if_neg (by decide)]
  rfl

end Machine

/-! ### Launches -/

/-- **What is launched through the shell is launched as it is.** The script that
the shell is given has no tokens but words and is one simple command. Its words
are `exec`, the executable and the arguments: without their quotes they are the
texts that were to be passed on, every character of these stands in quotes, and
expanding the words changes nothing in them. -/
theorem launch_runs_unchanged {os : String} (hos : os ≠ "windows") (executable : String)
    (args : List String) :
    ∃ (source : String) (words : List Word),
      command os executable args = (shellPath, ["-c", source]) ∧
      tokens? source.toList = some (words.map (.word 1)) ∧
      parse? source.toList = some (.sequence (.simple 1 words []) .nothing) ∧
      words.map (fun w => (unquote? w).map String.ofList) =
        ("exec" :: executable :: args).map some ∧
      words.head? = some execWord ∧ (∀ w ∈ words.tail, ∀ p ∈ w, p.isLiteral = true) ∧
      ∀ m : Machine, words.map m.expand = ("exec" :: executable :: args).map ([·]) := by
  have hexec : (unquote? execWord).map String.ofList = some "exec" := by decide
  have htext : ∀ s : String, (unquote? (quotedWord s.toList)).map String.ofList = some s := by
    intro s
    rw [unquote?_quotedWord, Option.map_some, String.ofList_toList]
  refine ⟨String.ofList (script executable.toList (args.map String.toList)),
    execWord :: (executable.toList :: args.map String.toList).map quotedWord, ?_, ?_, ?_, ?_, rfl,
    ?_, ?_⟩
  · rw [command, if_neg hos]
  · rw [String.toList_ofList, script_tokens]
  · rw [String.toList_ofList, parse?_script]
  · simp only [List.map_cons, List.map_map, Function.comp_def, hexec, htext]
  · intro w hw p hp
    obtain ⟨t, _, rfl⟩ := List.mem_map.mp hw
    exact isLiteral_of_mem_quotedWord hp
  · intro m
    simp only [List.map_cons, List.map_map, Function.comp_def, m.expand_execWord,
      m.expand_quotedWord, String.ofList_toList]

/-- Quotes of both kinds, what would be expanded, an operator, a comment, a line
feed and nothing at all. -/
theorem launch_hostile_unchanged :
    ("linux" : String) ≠ "windows" ∧
      ∃ (source : String) (words : List Word),
        command "linux" "it's" ["", "$(x) \x60y\x60 \"$z\"", "*;\n#'"] = (shellPath, ["-c", source]) ∧
        parse? source.toList = some (.sequence (.simple 1 words []) .nothing) ∧
        words.map (fun w => (unquote? w).map String.ofList) =
          ["exec", "it's", "", "$(x) \x60y\x60 \"$z\"", "*;\n#'"].map some := by
  have hos : ("linux" : String) ≠ "windows" := by decide
  obtain ⟨source, words, hcommand, _, hparse, htexts, _⟩ :=
    launch_runs_unchanged hos "it's" ["", "$(x) \x60y\x60 \"$z\"", "*;\n#'"]
  exact ⟨hos, source, words, hcommand, hparse, htexts⟩

end LanguageClient.Shell
