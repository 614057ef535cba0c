/-!
# Characters, blanks and comments

Character classes of the document language, and the functions that skip what
carries no meaning.  Line breaks are a line feed, alone or after a carriage
return.  No other control character than the tab may occur anywhere.
-/

namespace MotorSupervisor
namespace Toml

/-- Space or tab. -/
def isBlank (c : Char) : Bool :=
  c == ' ' || c == '\t'

/-- A character that may stand in a comment or a string as itself. -/
def isPrintable (c : Char) : Bool :=
  c == '\t' || (' ' ≤ c && c != '\x7f')

/-- A character of a key without quotes. -/
def isBareKey (c : Char) : Bool :=
  c.isAlphanum || c == '_' || c == '-'

/-- A character that cannot be part of an unquoted scalar. -/
def endsScalar (c : Char) : Bool :=
  [',', ']', '}', '[', '{', '#', '=', '\r', '\n'].contains c

/-- The text after leading blanks. -/
def skipBlanks (cs : List Char) : List Char :=
  cs.dropWhile isBlank

/-- The text after a line break, if it starts with one. -/
def lineBreak? : List Char → Option (List Char)
  | '\n' :: rest => some rest
  | '\r' :: '\n' :: rest => some rest
  | _ => none

/-- The text after blanks, line breaks and comments.  The flag says whether
the text starts inside a comment. -/
def skipVoid : Bool → List Char → Option (List Char)
  | _, [] => some []
  | _, '\n' :: rest => skipVoid false rest
  | _, '\r' :: '\n' :: rest => skipVoid false rest
  | true, c :: rest => if isPrintable c then skipVoid true rest else none
  | false, c :: rest =>
      if isBlank c then skipVoid false rest
      else if c = '#' then skipVoid true rest
      else some (c :: rest)

/-- The text after the rest of a line that may only hold blanks and a
comment. -/
def endLine (cs : List Char) : Option (List Char) :=
  let afterComment :=
    match skipBlanks cs with
    | '#' :: rest => rest.dropWhile isPrintable
    | rest => rest
  match afterComment with
  | [] => some []
  | rest => lineBreak? rest

end Toml
end MotorSupervisor
