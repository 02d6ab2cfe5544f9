import Meshway.Text.Digit
set_option autoImplicit false

/-!
# Quoted texts (SPEC §10.2)

A text stands between quotes of one of two kinds, either on one line, or
between three quotes at each end on as many lines as it takes.  Between double
quotes a backslash starts an escape; between single quotes nothing has a
meaning of its own.  Each reader starts behind the opening quotes and gives the
text and what follows the closing ones.
-/

namespace Meshway.Toml.Quotation

/-- Whether a character may stand on a line of text: all but the control characters save the tab. -/
def isLineText (c : Char) : Bool := c == '\t' || (' ' ≤ c && c != '\x7f')

/-- The character with a code of a given number of hexadecimal digits at the front. -/
def code? (size : Nat) (cs : List Char) : Option Char :=
  let ds := cs.take size
  if ds.length = size ∧ ds.all (Text.isDigitOf 16) then
    let n := Text.number 16 ds
    if n.isValidChar then some (Char.ofNat n) else none
  else none

/-- The character that an escape stands for, and how many characters after the backslash spell
it. -/
def escape? : List Char → Option (Char × Nat)
  | 'b' :: _ => some ('\x08', 1)
  | 't' :: _ => some ('\t', 1)
  | 'n' :: _ => some ('\n', 1)
  | 'f' :: _ => some ('\x0c', 1)
  | 'r' :: _ => some ('\r', 1)
  | '"' :: _ => some ('"', 1)
  | '\\' :: _ => some ('\\', 1)
  | 'u' :: cs => (code? 4 cs).map (·, 5)
  | 'U' :: cs => (code? 8 cs).map (·, 9)
  | _ => none

/-- Puts a character before the text that was read. -/
def prepend (c : Char) (r : List Char × List Char) : List Char × List Char := (c :: r.1, r.2)

/-- Reads a text between double quotes. -/
def basic (cs : List Char) : Option (List Char × List Char) :=
  match cs with
  | [] => none
  | c :: cs =>
    if c = '"' then some ([], cs)
    else if c = '\\' then
      match escape? cs with
      | none => none
      | some (x, n) => (basic (cs.drop n)).map (prepend x)
    else if isLineText c then (basic cs).map (prepend c)
    else none
termination_by cs.length
decreasing_by all_goals simp_wf; try omega

/-- Reads a text between single quotes. -/
def literal : List Char → Option (List Char × List Char)
  | [] => none
  | c :: cs =>
    if c = '\'' then some ([], cs)
    else if isLineText c then (literal cs).map (prepend c)
    else none

/-- Whether a text starts with two quotes. -/
def twoQuotes (q : Char) (cs : List Char) : Bool := cs.take 2 == [q, q]

/-- The end of a text on many lines, behind its three quotes: up to two quotes more stand before
them and belong to the text. -/
def close (q : Char) (cs : List Char) : List Char × List Char :=
  let n := min 2 (cs.takeWhile (· == q)).length
  (List.replicate n q, cs.drop n)

/-- Whether nothing but blanks is left of a line that is not the last. -/
def endsLine (cs : List Char) : Bool :=
  (cs.dropWhile fun c => c == ' ' || c == '\t').head? == some '\n'

/-- Reads a text on many lines between double quotes.  A backslash at the end of a line leaves out
all blanks and ends of lines that follow, which the flag says is being done. -/
def basicLines (skipping : Bool) (cs : List Char) : Option (List Char × List Char) :=
  match cs with
  | [] => none
  | c :: cs =>
    if skipping && (c == ' ' || c == '\t' || c == '\n') then basicLines true cs
    else if c = '"' ∧ twoQuotes '"' cs then some (close '"' (cs.drop 2))
    else if c = '\\' then
      if endsLine cs then basicLines true cs
      else match escape? cs with
        | none => none
        | some (x, n) => (basicLines false (cs.drop n)).map (prepend x)
    else if c = '\n' ∨ isLineText c then (basicLines false cs).map (prepend c)
    else none
termination_by cs.length
decreasing_by all_goals simp_wf; try omega

/-- Reads a text on many lines between single quotes. -/
def literalLines : List Char → Option (List Char × List Char)
  | [] => none
  | c :: cs =>
    if c = '\'' ∧ twoQuotes '\'' cs then some (close '\'' (cs.drop 2))
    else if c = '\n' ∨ isLineText c then (literalLines cs).map (prepend c)
    else none

/-- A text on many lines starts on the line after its opening quotes, if nothing else stands on
their line. -/
def dropLineEnd : List Char → List Char
  | '\n' :: cs => cs
  | cs => cs

/-- Reads a text on one line, with its quotes. -/
def line : List Char → Option (List Char × List Char)
  | '"' :: cs => basic cs
  | '\'' :: cs => literal cs
  | _ => none

/-- Reads a text of any kind, with its quotes. -/
def any : List Char → Option (List Char × List Char)
  | '"' :: '"' :: '"' :: cs => basicLines false (dropLineEnd cs)
  | '\'' :: '\'' :: '\'' :: cs => literalLines (dropLineEnd cs)
  | cs => line cs

end Meshway.Toml.Quotation
