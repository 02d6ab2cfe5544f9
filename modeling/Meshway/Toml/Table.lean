set_option autoImplicit false

/-!
# Tables of a configuration file (SPEC §10.2)

A configuration file is a table of named items.  Headers and dotted keys open
tables within it.  A table is opened by one header at most, after which dotted
keys cannot reach into it, and a name is given one item only.
-/

namespace Meshway.Toml

/-- How a table came to be. -/
inductive Opening where
  /-- by a header of its own -/
  | header
  /-- by the header of a table within it -/
  | implied
  /-- by a dotted key -/
  | dotted
  /-- by a value in braces, which nothing can be added to -/
  | inline
  deriving DecidableEq, Repr, Inhabited

/-- What a name stands for.  Of the values that no setting takes only the kind is kept. -/
inductive Item where
  | text (s : String)
  | integer (n : Int)
  | boolean (b : Bool)
  /-- a number with a fraction or an exponent, or one that is not finite -/
  | real
  /-- a date, a time of day, or both -/
  | moment
  | array (items : List Item)
  | table (opening : Opening) (entries : List (String × Item))
  /-- tables that share a header, each with a copy of it -/
  | tables (elements : List (List (String × Item)))
  deriving Repr, Inhabited

/-- The named items of a table. -/
abbrev Entries : Type := List (String × Item)

namespace Entries

/-- Gives a name a new item. -/
def put (k : String) (i : Item) (es : Entries) : Entries :=
  es.map fun e => if e.1 = k then (k, i) else e

/-- Adds an item under a key, a dotted one opening tables.  A dotted key passes through the tables
that dotted keys opened; on the way to a table of its own it also passes through those that have
no header yet and into the last of tables that share one. -/
def insert (i : Item) : List String → Entries → Option Entries
  | [], _ => none
  | [k], es => if (es.lookup k).isSome then none else some (es ++ [(k, i)])
  | k :: ks, es =>
    match es.lookup k with
    | none => (insert i ks []).map fun sub => es ++ [(k, .table .dotted sub)]
    | some (.table .dotted sub) => (insert i ks sub).map fun sub => put k (.table .dotted sub) es
    | some (.table .implied sub) =>
      if ks.length = 1 then none
      else (insert i ks sub).map fun sub => put k (.table .implied sub) es
    | some (.tables els) =>
      if ks.length = 1 then none
      else (insert i ks (els.getLast?.getD [])).map fun sub =>
        put k (.tables (els.dropLast ++ [sub])) es
    | some _ => none

/-- Changes the table that a header leads to, opening those on the way. -/
def within (f : Entries → Option Entries) : List String → Entries → Option Entries
  | [], es => f es
  | k :: ks, es =>
    match es.lookup k with
    | none => (within f ks []).map fun sub => es ++ [(k, .table .implied sub)]
    | some (.table .inline _) => none
    | some (.table opening sub) => (within f ks sub).map fun sub => put k (.table opening sub) es
    | some (.tables els) => (within f ks (els.getLast?.getD [])).map fun sub =>
        put k (.tables (els.dropLast ++ [sub])) es
    | some _ => none

/-- Opens a table by its header. -/
def define (path : List String) : Entries → Option Entries :=
  within (fun es =>
    let k := path.getLast?.getD ""
    match es.lookup k with
    | none => some (es ++ [(k, .table .header [])])
    | some (.table .implied sub) => some (put k (.table .header sub) es)
    | some _ => none) path.dropLast

/-- Opens another of the tables that share a header. -/
def extend (path : List String) : Entries → Option Entries :=
  within (fun es =>
    let k := path.getLast?.getD ""
    match es.lookup k with
    | none => some (es ++ [(k, .tables [[]])])
    | some (.tables els) => some (put k (.tables (els ++ [[]])) es)
    | some _ => none) path.dropLast

end Entries

/-! ## Records

A record is given by a table that names its fields, or by an array that lists
them in order; either may leave fields out and have others besides.  A moment
has no fields at all, and stands for a record with none given. -/

namespace Item

/-- Whether an item can stand for a record. -/
def isRecord : Item → Bool
  | .table .. | .array _ | .tables _ | .moment => true
  | _ => false

/-- What an item gives for a field with a place and a name. -/
def field (place : Nat) (name : String) : Item → Option Item
  | .table _ es => es.lookup name
  | .array items => items[place]?
  | .tables els => els[place]?.map (.table .header)
  | _ => none

/-- The value given for a field, or the value it has otherwise; none when what is given does not
fit. -/
def read {α : Type} (i : Item) (place : Nat) (name : String) (other : α)
    (value : Item → Option α) : Option α :=
  (i.field place name).elim (some other) value

/-- A truth value. -/
def boolean? : Item → Option Bool
  | .boolean b => some b
  | _ => none

/-- A text. -/
def text? : Item → Option String
  | .text s => some s
  | _ => none

/-- A number from zero to a limit. -/
def natural? (limit : Nat) : Item → Option Nat
  | .integer n => if 0 ≤ n ∧ n ≤ limit then some n.toNat else none
  | _ => none

/-- An unsigned sixteen-bit number. -/
def uint16? (i : Item) : Option UInt16 := (i.natural? 0xffff).map UInt16.ofNat

/-- An unsigned sixty-four-bit number. -/
def uint64? (i : Item) : Option UInt64 := (i.natural? 0xffffffffffffffff).map UInt64.ofNat

end Item

end Meshway.Toml
