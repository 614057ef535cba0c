import MotorSupervisor.Decimal.Literal
import MotorSupervisor.Toml.Character

/-!
# Quoted strings

Double quotes enclose strings with escapes, single quotes strings without.
Three quotes in a row open a string that may span lines; a line break right
after them is dropped, every other one is kept as it is, and up to two quotes
may stand before the closing three.  Each reader takes the text after the
opening quotes and returns the content with the text after the closing ones.
-/

namespace MotorSupervisor
namespace Toml

/-- The character of a one-letter escape. -/
def escape? : Char → Option Char
  | 'b' => some '\x08'
  | 't' => some '\t'
  | 'n' => some '\n'
  | 'f' => some '\x0c'
  | 'r' => some '\r'
  | 'e' => some '\x1b'
  | '"' => some '"'
  | '\\' => some '\\'
  | _ => none

/-- The character with the code point written by hexadecimal digits. -/
def codePoint? (digits : List Char) : Option Char := do
  let n ← ofDigits? 16 digits
  if n.isValidChar then some (Char.ofNat n) else none

/-- A numeric escape and the text after it; the text starts with the letter
that gives the number of digits. -/
def numericEscape? : List Char → Option (Char × List Char)
  | 'x' :: a :: b :: rest => (codePoint? [a, b]).map (·, rest)
  | 'u' :: a :: b :: c :: d :: rest => (codePoint? [a, b, c, d]).map (·, rest)
  | 'U' :: a :: b :: c :: d :: e :: f :: g :: h :: rest =>
      (codePoint? [a, b, c, d, e, f, g, h]).map (·, rest)
  | _ => none

/-- One escape after its backslash. -/
def anyEscape? : List Char → Option (Char × List Char)
  | [] => none
  | c :: rest =>
      match escape? c with
      | some e => some (e, rest)
      | none => numericEscape? (c :: rest)

theorem anyEscape?_length {cs rest : List Char} {c : Char}
    (h : anyEscape? cs = some (c, rest)) :
    rest.length < cs.length := by
  unfold anyEscape? at h
  split at h
  · cases h
  · split at h
    · simp only [Option.some.injEq, Prod.mk.injEq] at h
      simp [← h.2]
    · unfold numericEscape? at h
      split at h
      all_goals simp_all
      all_goals
        obtain ⟨_, _, _, rfl⟩ := h
        omega

/-- The content of a one-line string with escapes. -/
def basic (content : List Char) (cs : List Char) :
    Option (String × List Char) :=
  match cs with
  | [] => none
  | '"' :: rest => some (String.ofList content.reverse, rest)
  | '\\' :: rest =>
      match h : anyEscape? rest with
      | some (c, after) =>
          have := anyEscape?_length h
          basic (c :: content) after
      | none => none
  | c :: rest => if isPrintable c then basic (c :: content) rest else none
termination_by cs.length

/-- The content of a one-line string without escapes. -/
def literal (cs : List Char) : Option (String × List Char) :=
  let content := cs.takeWhile (fun c => isPrintable c && c != '\x27')
  match cs.dropWhile (fun c => isPrintable c && c != '\x27') with
  | '\x27' :: rest => some (String.ofList content, rest)
  | _ => none

/-- The text after a line break that directly follows the opening quotes. -/
def dropFirstBreak (cs : List Char) : List Char :=
  (lineBreak? cs).getD cs

/-- The text after blanks and line breaks. -/
def skipFold : List Char → List Char
  | [] => []
  | '\r' :: '\n' :: rest => skipFold rest
  | c :: rest => if isBlank c || c == '\n' then skipFold rest else c :: rest

theorem skipFold_length (cs : List Char) : (skipFold cs).length ≤ cs.length := by
  fun_induction skipFold cs with
  | case1 => simp
  | case2 rest ih => simp only [List.length_cons]; omega
  | case3 c rest _ _ ih => simp only [List.length_cons]; omega
  | case4 => simp

/-- The text after a folded line: blanks up to a line break, then all blanks
and line breaks that follow. -/
def fold? (cs : List Char) : Option (List Char) :=
  (lineBreak? (skipBlanks cs)).map skipFold

theorem lineBreak?_length {cs rest : List Char} (h : lineBreak? cs = some rest) :
    rest.length < cs.length := by
  unfold lineBreak? at h
  split at h
  · cases h
    exact Nat.lt_succ_self _
  · cases h
    simp only [List.length_cons]
    omega
  · cases h

theorem skipBlanks_length (cs : List Char) : (skipBlanks cs).length ≤ cs.length :=
  (List.dropWhile_suffix isBlank).length_le

theorem fold?_length {cs rest : List Char} (h : fold? cs = some rest) :
    rest.length < cs.length := by
  unfold fold? at h
  obtain ⟨after, hafter, rfl⟩ := Option.map_eq_some_iff.1 h
  have h1 := lineBreak?_length hafter
  have h2 := skipFold_length after
  have h3 := skipBlanks_length cs
  omega

/-- The content of a string of several lines with escapes. -/
def basicLines (content : List Char) (cs : List Char) :
    Option (String × List Char) :=
  match cs with
  | [] => none
  | '"' :: '"' :: '"' :: '"' :: '"' :: rest =>
      some (String.ofList ('"' :: '"' :: content).reverse, rest)
  | '"' :: '"' :: '"' :: '"' :: rest =>
      some (String.ofList ('"' :: content).reverse, rest)
  | '"' :: '"' :: '"' :: rest => some (String.ofList content.reverse, rest)
  | '\r' :: '\n' :: rest => basicLines ('\n' :: '\r' :: content) rest
  | '\\' :: rest =>
      match h : anyEscape? rest with
      | some (c, after) =>
          have := anyEscape?_length h
          basicLines (c :: content) after
      | none =>
          match h : fold? rest with
          | some after =>
              have := fold?_length h
              basicLines content after
          | none => none
  | c :: rest =>
      if isPrintable c || c == '\n' then basicLines (c :: content) rest else none
termination_by cs.length

/-- The content of a string of several lines without escapes. -/
def literalLines (content : List Char) : List Char → Option (String × List Char)
  | [] => none
  | '\x27' :: '\x27' :: '\x27' :: '\x27' :: '\x27' :: rest =>
      some (String.ofList ('\x27' :: '\x27' :: content).reverse, rest)
  | '\x27' :: '\x27' :: '\x27' :: '\x27' :: rest =>
      some (String.ofList ('\x27' :: content).reverse, rest)
  | '\x27' :: '\x27' :: '\x27' :: rest => some (String.ofList content.reverse, rest)
  | '\r' :: '\n' :: rest => literalLines ('\n' :: '\r' :: content) rest
  | c :: rest =>
      if isPrintable c || c == '\n' then literalLines (c :: content) rest else none

/-- A string on one line, at its opening quote. -/
def quotedLine? : List Char → Option (String × List Char)
  | '"' :: rest => basic [] rest
  | '\x27' :: rest => literal rest
  | _ => none

/-- A string of any kind, at its opening quote. -/
def quoted? : List Char → Option (String × List Char)
  | '"' :: '"' :: '"' :: rest => basicLines [] (dropFirstBreak rest)
  | '\x27' :: '\x27' :: '\x27' :: rest => literalLines [] (dropFirstBreak rest)
  | cs => quotedLine? cs

end Toml
end MotorSupervisor
