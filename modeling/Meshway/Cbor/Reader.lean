import Meshway.Cbor.Value
set_option autoImplicit false

/-!
# Reading CBOR (SPEC §4.1)

A reader takes a value off the front of a byte string.  Any width of head is
read, and strings, arrays and maps of indefinite length.  Tags are passed over,
but count as a level of nesting like arrays and maps.  Items are read one by
one, so the first fault in reading order is the one reported.
-/

namespace Meshway.Cbor

/-- Why a byte string holds no value. -/
inductive Fault where
  /-- the input ended inside an item -/
  | endOfInput
  /-- a text claims more octets than are left -/
  | textTooLong (claimed left : Nat)
  /-- a head that stands for nothing -/
  | reserved
  /-- the end mark of an indefinite length where an item is due -/
  | strayBreak
  /-- a piece of an indefinite string that is no string of that kind -/
  | piece
  /-- text that is not UTF-8 -/
  | utf8
  /-- too many levels of arrays, maps and tags -/
  | depth
  /-- octets after the value -/
  | trailing
  deriving DecidableEq, Repr, Inhabited

/-- The two kinds of fault that callers tell apart. -/
inductive FaultKind where
  /-- more input might have made it a value -/
  | cutShort
  /-- no further input can make it a value -/
  | malformed
  deriving DecidableEq, Repr, Inhabited

/-- The kind of a fault in an input of `size` octets.  The end of a text is a position of sixty-four
bits; a text that would end beyond those is malformed, however much input follows. -/
def Fault.kind (size : Nat) : Fault → FaultKind
  | .endOfInput => .cutShort
  | .textTooLong claimed left =>
    if size - left + claimed < UInt64.size then .cutShort else .malformed
  | _ => .malformed

/-- A reader takes something off the front of the input and returns the rest. -/
abbrev Step (α : Type) : Type := Bytes → Except Fault (α × Bytes)

namespace Reader

/-! ## Heads and strings -/

/-- The next `n` octets. -/
def octets (n : Nat) : Step Bytes := fun bs =>
  if (bs.take n).length = n then .ok (bs.take n, bs.drop n) else .error .endOfInput

/-- A number of `width` octets. -/
def number (width : Nat) : Step Nat := fun bs =>
  match octets width bs with
  | .error e => .error e
  | .ok (field, rest) => .ok (Bytes.toNat field, rest)

/-- What the low five bits of a head and the octets after it say. -/
inductive Extent where
  | definite (n : Nat)
  | indefinite
  deriving DecidableEq, Repr, Inhabited

/-- Reads the argument of a head, given its low five bits. -/
def extent (info : Nat) : Step Extent := fun bs =>
  let field (width : Nat) : Except Fault (Extent × Bytes) :=
    match number width bs with
    | .error e => .error e
    | .ok (n, rest) => .ok (.definite n, rest)
  if info < 24 then .ok (.definite info, bs)
  else match info with
    | 24 => field 1
    | 25 => field 2
    | 26 => field 4
    | 27 => field 8
    | 31 => .ok (.indefinite, bs)
    | _ => .error .reserved

/-- Reads an argument that has to be a number. -/
def argument (info : Nat) : Step Nat := fun bs =>
  match extent info bs with
  | .error e => .error e
  | .ok (.definite n, rest) => .ok (n, rest)
  | .ok (.indefinite, _) => .error .reserved

/-- The text that the given octets spell. -/
def asText (bs : Bytes) : Except Fault Value :=
  match Utf8.decode? bs with
  | some s => .ok (.text s)
  | none => .error .utf8

/-- A text of `n` octets. -/
def textOf (n : Nat) : Step Value := fun bs =>
  match octets n bs with
  | .error _ => .error (.textTooLong n bs.length)
  | .ok (field, rest) => (asText field).map fun v => (v, rest)

/-- The pieces of an indefinite string of kind `major` joined, up to the end mark.  The first
argument bounds the number of pieces: each takes at least one octet of the input. -/
def pieces (major : Nat) : Bytes → Step Bytes
  | [], _ => .error .endOfInput
  | _ :: _, [] => .error .endOfInput
  | _ :: bound, b :: rest =>
    if b = 0xff then .ok ([], rest)
    else if b.toNat / 32 ≠ major then .error .piece
    else match extent (b.toNat % 32) rest with
      | .error .reserved => .error .piece
      | .error e => .error e
      | .ok (.indefinite, _) => .error .piece
      | .ok (.definite n, rest) =>
        match octets n rest with
        | .error e => .error e
        | .ok (field, rest) =>
          match pieces major bound rest with
          | .error e => .error e
          | .ok (fields, rest) => .ok (field ++ fields, rest)

/-! ## Repetition -/

/-- As many things as the number says. -/
def times {α : Type} (step : Step α) : Nat → Step (List α)
  | 0, bs => .ok ([], bs)
  | n + 1, bs =>
    match step bs with
    | .error e => .error e
    | .ok (x, rest) =>
      match times step n rest with
      | .error e => .error e
      | .ok (xs, rest) => .ok (x :: xs, rest)

/-- Things up to the end mark.  The first argument bounds their number: each takes at least one
octet of the input. -/
def untilBreak {α : Type} (step : Step α) : Bytes → Step (List α)
  | [], _ => .error .endOfInput
  | _ :: _, [] => .error .endOfInput
  | _ :: bound, b :: rest =>
    if b = 0xff then .ok ([], rest)
    else match step (b :: rest) with
      | .error e => .error e
      | .ok (x, rest) =>
        match untilBreak step bound rest with
        | .error e => .error e
        | .ok (xs, rest) => .ok (x :: xs, rest)

/-- Things in the number that a head states. -/
def series {α : Type} (step : Step α) : Extent → Step (List α)
  | .definite n => times step n
  | .indefinite => fun bs => untilBreak step bs bs

/-- A key and its value. -/
def entry (step : Step Value) : Step (Value × Value) := fun bs =>
  match step bs with
  | .error e => .error e
  | .ok (k, rest) =>
    match step rest with
    | .error e => .error e
    | .ok (v, rest) => .ok ((k, v), rest)

/-! ## Items -/

/-- An item of the kind that holds no other items, given the parts of its first octet. -/
def simple (info : Nat) : Step Value := fun bs =>
  let float (width : Nat) (F : Floating.Format) : Except Fault (Value × Bytes) :=
    match number width bs with
    | .error e => .error e
    | .ok (n, rest) => .ok (.float (Floating.widen F n), rest)
  match info with
  | 20 => .ok (.bool false, bs)
  | 21 => .ok (.bool true, bs)
  | 22 => .ok (.null, bs)
  | 23 => .ok (.null, bs)
  | 25 => float 2 Floating.half
  | 26 => float 4 Floating.single
  | 27 => float 8 Floating.double
  | 31 => .error .strayBreak
  | _ => .error .reserved

/-- A string of octets or of text. -/
def string (major info : Nat) : Step Value := fun bs =>
  match extent info bs with
  | .error e => .error e
  | .ok (.definite n, rest) =>
    if major = 2 then (octets n rest).map fun (field, rest) => (.bytes field, rest)
    else textOf n rest
  | .ok (.indefinite, rest) =>
    match pieces major rest rest with
    | .error e => .error e
    | .ok (field, rest) =>
      if major = 2 then .ok (.bytes field, rest) else (asText field).map fun v => (v, rest)

/-- An item that holds other items, each read by `step`: an array, a map, or a tagged item. -/
def holder (step : Step Value) (major : Nat) (size : Extent) : Step Value := fun bs =>
  match major with
  | 4 => (series step size bs).map fun (items, rest) => (.array items, rest)
  | 5 => (series (entry step) size bs).map fun (es, rest) => (Value.ofEntries es, rest)
  | _ => step bs

/-- An item inside fewer than `depth` levels of arrays, maps and tags that may still be entered. -/
def item : Nat → Step Value
  | 0, _ => .error .depth
  | _ + 1, [] => .error .endOfInput
  | depth + 1, b :: rest =>
    let info := b.toNat % 32
    match b.toNat / 32 with
    | 0 => (argument info rest).map fun (n, rest) => (.int n, rest)
    | 1 => (argument info rest).map fun (n, rest) => (.int (-1 - n), rest)
    | 2 => string 2 info rest
    | 3 => string 3 info rest
    | 7 => simple info rest
    | major =>
      match if major = 6 then (argument info rest).map (fun (n, r) => (Extent.definite n, r))
          else extent info rest with
      | .error e => .error e
      | .ok (size, rest) => if depth = 0 then .error .depth else holder (item depth) major size rest

/-- The number of levels, counting the item itself, that a value may have. -/
def maxDepth : Nat := 128

end Reader

/-- The value that a byte string holds, all of it. -/
def Value.decode (bs : Bytes) : Except Fault Value :=
  match Reader.item Reader.maxDepth bs with
  | .error e => .error e
  | .ok (v, []) => .ok v
  | .ok (_, _ :: _) => .error .trailing

end Meshway.Cbor
