import Meshway.Toml.Quotation
import Meshway.Toml.Scalar
set_option autoImplicit false

/-!
# Configuration files (SPEC §10.2)

A configuration file in version 1.0 of the TOML format: lines that open a table
or give a name an item, blank lines and comments.  Its whole text makes a table
or is refused.  Keys of `limit` parts and values nested `limit` deep are refused
too.
-/

namespace Meshway.Toml

open Quotation (isLineText)
open Text (Reader expect)

/-- How many parts a key cannot have, and how deep values cannot be nested. -/
def limit : Nat := 80

/-! ## Blanks and comments -/

/-- Whether a character separates words on a line. -/
def isSpace (c : Char) : Bool := c == ' ' || c == '\t'

/-- Leaves out spaces. -/
def skipSpaces (cs : List Char) : List Char := cs.dropWhile isSpace

/-- Leaves out spaces, ends of lines and comments; the flag says that a comment is being left
out. -/
def skipLines : Bool → List Char → List Char
  | _, [] => []
  | false, c :: cs =>
    if isSpace c || c == '\n' then skipLines false cs
    else if c = '#' then skipLines true cs
    else c :: cs
  | true, c :: cs =>
    if c = '\n' then skipLines false cs
    else if isLineText c then skipLines true cs
    else c :: cs

/-- Reads what is left of a line, which may be a comment. -/
def lineEnd (cs : List Char) : Option (List Char) :=
  let cs := skipSpaces cs
  let cs := if cs.head? = some '#' then cs.dropWhile isLineText else cs
  match cs with
  | [] => some []
  | c :: cs => if c = '\n' then some cs else none

/-! ## Keys -/

/-- Whether a character may stand in a key without quotes. -/
def isBare (c : Char) : Bool := c.isAlphanum || c == '_' || c == '-'

/-- Reads one part of a key. -/
def keyPart : Reader String := fun cs =>
  match Quotation.line cs with
  | some (s, rest) => some (String.ofList s, rest)
  | none =>
    let (bare, rest) := cs.span isBare
    if bare = [] then none else some (String.ofList bare, rest)

/-- Reads a key of at most so many parts. -/
def key : Nat → Reader (List String)
  | 0 => fun _ => none
  | room + 1 => fun cs => do
    let (part, cs) ← keyPart (skipSpaces cs)
    match skipSpaces cs with
    | '.' :: cs => do
      let (parts, cs) ← key room cs
      return (part :: parts, cs)
    | cs => return ([part], cs)

/-- Reads a key and the item that it stands for. -/
def entry (item : Reader Item) : Reader (List String × Item) := fun cs => do
  let (parts, cs) ← key (limit - 1) cs
  let cs ← expect '=' cs
  let (i, cs) ← item (skipSpaces cs)
  return ((parts, i), cs)

/-! ## Values -/

/-- Reads the rest of an array, given at least as many steps as there are characters. -/
def arrayItems (item : Reader Item) : Nat → Reader (List Item)
  | 0 => fun _ => none
  | steps + 1 => fun cs =>
    match skipLines false cs with
    | ']' :: cs => some ([], cs)
    | cs => do
      let (i, cs) ← item cs
      match skipLines false cs with
      | ']' :: cs => return ([i], cs)
      | ',' :: cs => do
        let (is, cs) ← arrayItems item steps cs
        return (i :: is, cs)
      | _ => none

/-- Reads the rest of a table in braces that has entries, given at least as many steps as there are
characters. -/
def inlineEntries (item : Reader Item) : Nat → Reader (List (List String × Item))
  | 0 => fun _ => none
  | steps + 1 => fun cs => do
    let (e, cs) ← entry item cs
    match skipSpaces cs with
    | '}' :: cs => return ([e], cs)
    | ',' :: cs => do
      let (es, cs) ← inlineEntries item steps cs
      return (e :: es, cs)
    | _ => none

/-- Reads the rest of a table in braces. -/
def inlineTable (item : Reader Item) : Reader Item := fun cs =>
  match skipSpaces cs with
  | '}' :: cs => some (.table .inline [], cs)
  | _ => do
    let (es, cs) ← inlineEntries item (cs.length + 1) cs
    let t ← es.foldlM (fun (t : Entries) e => t.insert e.2 e.1) []
    return (.table .inline t, cs)

/-- Whether a character ends a value without quotes. -/
def endsScalar (c : Char) : Bool :=
  isSpace c || c == '\n' || c == '#' || c == ',' || c == ']' || c == '}'

/-- Reads a value without quotes.  A space may stand between a date and a time of day. -/
def scalar : Reader Item := fun cs =>
  let (word, rest) := cs.span (!endsScalar ·)
  let (time, after) := (rest.drop 1).span (!endsScalar ·)
  if Scalar.isDate word && rest.head? == some ' ' && Scalar.isDayTime time then
    some (.moment, after)
  else (Scalar.ofChars? word).map (·, rest)

/-- Reads a value with at most so many levels within it. -/
def value : Nat → Reader Item
  | 0 => fun cs =>
    match cs with
    | '[' :: _ | '\x7b' :: _ => none
    | _ => plain cs
  | depth + 1 => fun cs =>
    match cs with
    | '[' :: cs => (arrayItems (value depth) (cs.length + 1) cs).map fun r => (.array r.1, r.2)
    | '\x7b' :: cs => inlineTable (value depth) cs
    | _ => plain cs
where
  /-- Reads a value with nothing within it. -/
  plain : Reader Item := fun cs =>
    if cs.head? = some '"' ∨ cs.head? = some '\'' then
      (Quotation.any cs).map fun r => (.text (String.ofList r.1), r.2)
    else scalar cs

/-! ## Lines -/

/-- What a line does. -/
inductive Line where
  | blank
  /-- opens a table -/
  | header (path : List String)
  /-- opens another of the tables that share a header -/
  | element (path : List String)
  /-- gives a name an item -/
  | entry (key : List String) (item : Item)
  deriving Repr, Inhabited

/-- Reads a line up to the comment or blanks at its end. -/
def lineBody : Reader Line := fun cs =>
  match skipSpaces cs with
  | [] => some (.blank, [])
  | '\n' :: rest => some (.blank, '\n' :: rest)
  | '#' :: rest => some (.blank, '#' :: rest)
  | '[' :: '[' :: cs => do
    let (path, cs) ← key (limit - 1) cs
    let cs ← (expect ']' cs).bind (expect ']')
    return (.element path, cs)
  | '[' :: cs => do
    let (path, cs) ← key (limit - 1) cs
    let cs ← expect ']' cs
    return (.header path, cs)
  | cs => (entry (value (limit - 1)) cs).map fun r => (.entry r.1.1 r.1.2, r.2)

/-- Reads all lines, given more steps than there are characters. -/
def lines : Nat → List Char → Option (List Line)
  | _, [] => some []
  | 0, _ :: _ => none
  | steps + 1, cs => do
    let (line, cs) ← lineBody cs
    let ls ← lines steps (← lineEnd cs)
    return line :: ls

/-- The table after a line, and the header that the next ones belong to. -/
def addLine (s : List String × Entries) : Line → Option (List String × Entries)
  | .blank => some s
  | .header path => (s.2.define path).map (path, ·)
  | .element path => (s.2.extend path).map (path, ·)
  | .entry key item => (s.2.within (Entries.insert item key) s.1).map (s.1, ·)

/-- A text in which a carriage return no longer stands before the end of a line. -/
def plainLines : List Char → List Char
  | '\r' :: '\n' :: cs => '\n' :: plainLines cs
  | c :: cs => c :: plainLines cs
  | [] => []

/-- The table that a text describes; a byte order mark may stand before it. -/
def parse? (s : String) : Option Entries := do
  let cs := plainLines (if s.toList.head? = some '\ufeff' then s.toList.drop 1 else s.toList)
  let ls ← lines (cs.length + 1) cs
  let (_, t) ← ls.foldlM addLine ([], [])
  return t

end Meshway.Toml
