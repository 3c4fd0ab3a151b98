import LanguageClient.Text.Utf8

/-! # Finding and replacing parts of a text. -/

namespace LanguageClient.Text

/-- What stands behind a text at the start of a longer one. -/
@[inline] def after? (front : String) (l : List Char) : Option (List Char) :=
  if front.toList.isPrefixOf l then some (l.drop front.length) else none

def occurs (what : List Char) : List Char → Bool
  | [] => what.isEmpty
  | c :: cs => what.isPrefixOf (c :: cs) || occurs what cs

/-- Replaces matches from left to right, with what was done already in front,
last character first. -/
def replaceFrom (f : List Char → Option (String × List Char)) :
    Nat → List Char → List Char → List Char
  | 0, done, rest => done.reverse ++ rest
  | _, done, [] => done.reverse
  | fuel + 1, done, c :: cs =>
    match f (c :: cs) with
    | some (new, rest) => replaceFrom f fuel (new.toList.reverse ++ done) rest
    | none => replaceFrom f fuel (c :: done) cs

/-- A text in which every match is replaced: `f` is tried at every place, and
gives what comes instead of the match and what stands behind it. -/
def replaceAll (f : List Char → Option (String × List Char)) (l : List Char) : List Char :=
  replaceFrom f (l.length + 1) [] l

end LanguageClient.Text
