import Mathlib.Algebra.GroupWithZero.Nat
import Mathlib.Data.List.Basic

set_option autoImplicit false

/- The type-string parser of the schema check (`spate-clickhouse/src/schema/typeparse.rs`).
Strings are lists of characters; the parser is total and degrades to `other`. -/
namespace Spate.ClickHouse

inductive ChType
  | named (name : String)
  | nullable (inner : ChType)
  | lowCardinality (inner : ChType)
  | array (inner : ChType)
  | map (key val : ChType)
  | tuple (elems : List ChType)
  | fixedString (n : UInt32)
  | dateTime (tz : Option String)
  | dateTime64 (precision : UInt8) (tz : Option String)
  | time64 (precision : UInt8)
  | decimal (precision scale : UInt8)
  | enum8
  | enum16
  | other (text : String)

/-! ## Text -/

def isWhitespace (c : Char) : Bool :=
  let n := c.toNat
  (9 ≤ n && n ≤ 13) || n = 32 || n = 0x85 || n = 0xa0 || n = 0x1680 ||
    (0x2000 ≤ n && n ≤ 0x200a) || n = 0x2028 || n = 0x2029 || n = 0x202f || n = 0x205f ||
    n = 0x3000

def trim (s : List Char) : List Char :=
  ((s.dropWhile isWhitespace).reverse.dropWhile isWhitespace).reverse

def splitOnce (sep : Char) (s : List Char) : Option (List Char × List Char) :=
  match s.dropWhile (· != sep) with
  | [] => none
  | _ :: rest => some (s.takeWhile (· != sep), rest)

/-- `str::strip_suffix` of one character. -/
def stripSuffix (last : Char) (s : List Char) : Option (List Char) :=
  if s.getLast? = some last then some s.dropLast else none

/-- `str::parse` of an unsigned integer below `bound`: an optional plus sign, then decimal
digits. -/
def parseBelow (bound : Nat) (s : List Char) : Option Nat :=
  let digits : List Char := match s with
    | '+' :: rest => rest
    | _ => s
  let n := digits.foldl (fun n c => 10 * n + (c.toNat - '0'.toNat)) 0
  if digits ≠ [] ∧ digits.all Char.isDigit ∧ n < bound then some n else none

def parseU8 (s : List Char) : Option UInt8 := (parseBelow (2 ^ 8) s).map UInt8.ofNat

def parseU32 (s : List Char) : Option UInt32 := (parseBelow (2 ^ 32) s).map UInt32.ofNat

/-- `str::replace` of `c` after a backslash by `c`. -/
def unescape (c : Char) : List Char → List Char
  | '\\' :: d :: rest =>
    if d = c then c :: unescape c rest else '\\' :: unescape c (d :: rest)
  | d :: rest => d :: unescape c rest
  | [] => []

def unquote (s : List Char) : Option String :=
  match trim s with
  | '\'' :: rest =>
    (stripSuffix '\'' rest).map fun inner =>
      String.ofList (unescape '\\' (unescape '\'' inner))
  | _ => none

/-! ## The tokenizer -/

/-- Where the scan stands: how deep in parentheses, whether in a quoted literal, whether
right after a backslash in one. -/
structure Scan where
  depth : Nat
  inQuote : Bool
  escape : Bool
  deriving DecidableEq, Repr

def Scan.start : Scan := ⟨0, false, false⟩

/-- The scan passes a character; `none` is a closing parenthesis too many. -/
def Scan.pass (scan : Scan) (c : Char) : Option Scan :=
  if scan.escape then some { scan with escape := false }
  else if c = '\\' ∧ scan.inQuote then some { scan with escape := true }
  else if c = '\'' then some { scan with inQuote := !scan.inQuote }
  else if c = '(' ∧ ¬ scan.inQuote then some { scan with depth := scan.depth + 1 }
  else if c = ')' ∧ ¬ scan.inQuote then
    if scan.depth = 0 then none else some { scan with depth := scan.depth - 1 }
  else some scan

/-- The character `c` met here is not nested, quoted or escaped. -/
def Scan.top (scan : Scan) : Bool := !scan.escape && !scan.inQuote && scan.depth = 0

/-- What follows the first top-level space, `top_level_space` and the slice after it. -/
def afterTopLevelSpace (scan : Scan) : List Char → Option (List Char)
  | [] => none
  | c :: rest =>
    if c = ' ' ∧ scan.top then some rest
    else do afterTopLevelSpace (← scan.pass c) rest

/-- The parts between top-level commas; `piece` is the part read so far. -/
def splitParts (scan : Scan) (piece : List Char) : List Char → Option (List (List Char))
  | [] => if scan.depth ≠ 0 ∨ scan.inQuote then none else some [trim piece]
  | c :: rest =>
    if c = ',' ∧ scan.top then do
      let parts ← splitParts scan [] rest
      some (trim piece :: parts)
    else do splitParts (← scan.pass c) (piece ++ [c]) rest

def splitTopLevel (s : List Char) : Option (List (List Char)) := do
  match ← splitParts .start [] s with
  -- An empty parameter list has no parts.
  | [[]] => some []
  | parts => some parts

/-! ## The parser -/

/-- The name before the parameters, and the parameters if there are any. -/
def nameAndArgs (s : List Char) : Option (List Char × Option (List Char)) :=
  match splitOnce '(' s with
  | none => some (trim s, none)
  | some (name, rest) => do
      let args ← stripSuffix ')' rest
      some (trim name, some args)

def isTypeName (name : List Char) : Bool :=
  name ≠ [] && name.all fun c => c.isAlphanum || c = '_'

/-- The type with this name and these parameters; `inner` parses a parameter. -/
def construct (inner : List Char → ChType) (name : String) (args : List (List Char)) :
    Option ChType :=
  match name, args with
  | "Nullable", [t] => some (.nullable (inner t))
  | "LowCardinality", [t] => some (.lowCardinality (inner t))
  | "SimpleAggregateFunction", _ :: t :: _ => some (inner t)
  | "Array", [t] => some (.array (inner t))
  | "Map", [k, v] => some (.map (inner k) (inner v))
  | "Tuple", e :: es =>
    -- A named element is `name Type`; a top-level space only separates the two.
    some (.tuple ((e :: es).map fun elem =>
      inner ((afterTopLevelSpace .start (trim elem)).getD (trim elem))))
  | "FixedString", [n] => (parseU32 n).map .fixedString
  | "DateTime", [] => some (.dateTime none)
  | "DateTime", [tz] => do some (.dateTime (some (← unquote tz)))
  | "DateTime64", [p] => do some (.dateTime64 (← parseU8 p) none)
  | "DateTime64", [p, tz] => do some (.dateTime64 (← parseU8 p) (some (← unquote tz)))
  | "Time64", [p] => (parseU8 p).map .time64
  | "Decimal", [p, s] => do some (.decimal (← parseU8 p) (← parseU8 s))
  | "Decimal32", [s] => (parseU8 s).map (.decimal 9)
  | "Decimal64", [s] => (parseU8 s).map (.decimal 18)
  | "Decimal128", [s] => (parseU8 s).map (.decimal 38)
  | "Decimal256", [s] => (parseU8 s).map (.decimal 76)
  | "Enum8", _ => some .enum8
  | "Enum16", _ => some .enum16
  | name, [] => some (.named name)
  | _, _ => none

def tryParse (inner : List Char → ChType) (s : List Char) : Option ChType := do
  let (name, args) ← nameAndArgs s
  let args ← match args with
    | none => some []
    | some args => splitTopLevel args
  if ¬ isTypeName name then none else construct inner (String.ofList name) args

/-- A parameter is shorter than the text it is part of, so the length bounds the nesting. -/
def parseChars : Nat → List Char → ChType
  | 0, s => .other (String.ofList (trim s))
  | depth + 1, s =>
    (tryParse (parseChars depth) (trim s)).getD (.other (String.ofList (trim s)))

def parse (s : String) : ChType := parseChars (s.length + 1) s.toList

end Spate.ClickHouse
