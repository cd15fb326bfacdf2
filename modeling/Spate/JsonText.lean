import Mathlib.Algebra.Group.Int.Defs
import Mathlib.Algebra.GroupWithZero.Nat
import Mathlib.Data.List.Basic

set_option autoImplicit false

/- JSON text as `serde_json` writes and reads it: the compact form of a tree, and a reader
of any text that gives the tree back. A tree keeps an object's entries in the order of the
text, the repeated ones too; what a repeated key means is its reader's choice. Integers
that fit 64 bits are numbers; every other number is kept as its literal, and `finite` says
which literals are within the range of a double. -/
namespace Spate.JsonText

inductive Json
  | null
  | bool (b : Bool)
  | int (n : Int)
  | float (literal : List Char)
  | str (s : String)
  | arr (elems : List Json)
  | obj (entries : List (String × Json))

/-! ## Writing -/

/-- One character of a string. -/
def escapeChar (c : Char) : List Char :=
  if c = '\x22' then ['\x5c', '\x22']
  else if c = '\x5c' then ['\x5c', '\x5c']
  else if c = '\x08' then ['\x5c', 'b']
  else if c = '\t' then ['\x5c', 't']
  else if c = '\n' then ['\x5c', 'n']
  else if c = '\x0c' then ['\x5c', 'f']
  else if c = '\r' then ['\x5c', 'r']
  else if c.toNat < 32 then
    ['\x5c', 'u', '0', '0', Nat.digitChar (c.toNat / 16), Nat.digitChar (c.toNat % 16)]
  else [c]

def renderString (s : String) : List Char := '\x22' :: (s.toList.flatMap escapeChar ++ ['\x22'])

def renderInt : Int → List Char
  | .ofNat n => Nat.toDigits 10 n
  | .negSucc n => '-' :: Nat.toDigits 10 (n + 1)

mutual

/-- The compact form. -/
def render : Json → List Char
  | .null => "null".toList
  | .bool true => "true".toList
  | .bool false => "false".toList
  | .int n => renderInt n
  | .float literal => literal
  | .str s => renderString s
  | .arr elems => '[' :: (renderElems elems ++ [']'])
  | .obj entries => '\x7b' :: (renderEntries entries ++ ['\x7d'])

def renderElems : List Json → List Char
  | [] => []
  | elem :: elems => render elem ++ if elems.isEmpty then [] else ',' :: renderElems elems

def renderEntries : List (String × Json) → List Char
  | [] => []
  | (key, value) :: entries =>
    renderString key ++ ':' :: (render value ++
      if entries.isEmpty then [] else ',' :: renderEntries entries)

end

/-! ## Reading -/

def isSpace (c : Char) : Bool := c = ' ' ∨ c = '\n' ∨ c = '\t' ∨ c = '\r'

/-- The text from its first character that is no whitespace on. -/
def skip : List Char → List Char
  | [] => []
  | c :: rest => if isSpace c then skip rest else c :: rest

/-- What follows `c`, if `c` is next. -/
def eat (c : Char) (text : List Char) : Option (List Char) :=
  match skip text with
  | [] => none
  | next :: rest => if next = c then some rest else none

/-- What follows `word`, if the text starts with it. -/
def eatWord : List Char → List Char → Option (List Char)
  | [], text => some text
  | _ :: _, [] => none
  | c :: word, next :: rest => if next = c then eatWord word rest else none

def hexValue (c : Char) : Option Nat :=
  if '0' ≤ c ∧ c ≤ '9' then some (c.toNat - 48)
  else if 'a' ≤ c ∧ c ≤ 'f' then some (c.toNat - 87)
  else if 'A' ≤ c ∧ c ≤ 'F' then some (c.toNat - 55)
  else none

/-- Four hexadecimal digits. -/
def parseHex : List Char → Option (Nat × List Char)
  | a :: b :: c :: d :: rest => do
      let a ← hexValue a
      let b ← hexValue b
      let c ← hexValue c
      let d ← hexValue d
      some (((a * 16 + b) * 16 + c) * 16 + d, rest)
  | _ => none

/-- The character after `\u`: a code point, or two surrogates. -/
def parseUnicode (text : List Char) : Option (Char × List Char) := do
  let (high, rest) ← parseHex text
  if 0xd800 ≤ high ∧ high < 0xdc00 then do
    let rest ← eatWord ['\x5c', 'u'] rest
    let (low, rest) ← parseHex rest
    if 0xdc00 ≤ low ∧ low < 0xe000 then
      some (Char.ofNat (0x10000 + (high - 0xd800) * 1024 + (low - 0xdc00)), rest)
    else none
  else if 0xdc00 ≤ high ∧ high < 0xe000 then none
  else some (Char.ofNat high, rest)

/-- The character after a backslash. -/
def parseEscape : List Char → Option (Char × List Char)
  | [] => none
  | c :: rest =>
    if c = '\x22' then some ('\x22', rest)
    else if c = '\x5c' then some ('\x5c', rest)
    else if c = '/' then some ('/', rest)
    else if c = 'b' then some ('\x08', rest)
    else if c = 'f' then some ('\x0c', rest)
    else if c = 'n' then some ('\n', rest)
    else if c = 'r' then some ('\r', rest)
    else if c = 't' then some ('\t', rest)
    else if c = 'u' then parseUnicode rest
    else none

/-- The characters up to the closing quote; one of `fuel` per character. -/
def parseChars : Nat → List Char → Option (List Char × List Char)
  | 0, _ => none
  | _ + 1, [] => none
  | fuel + 1, c :: rest =>
    if c = '\x22' then some ([], rest)
    else if c = '\x5c' then do
      let (escaped, rest) ← parseEscape rest
      let (chars, rest) ← parseChars fuel rest
      some (escaped :: chars, rest)
    else if c.toNat < 32 then none
    else do
      let (chars, rest) ← parseChars fuel rest
      some (c :: chars, rest)

/-- A string after its opening quote. -/
def parseString (text : List Char) : Option (String × List Char) := do
  let (chars, rest) ← parseChars (text.length + 1) text
  some (String.ofList chars, rest)

/-- A fraction, if a point is next: its characters. -/
def parseFraction : List Char → Option (List Char × List Char)
  | '.' :: rest =>
    let digits := rest.takeWhile (·.isDigit)
    if digits.isEmpty then none else some ('.' :: digits, rest.dropWhile (·.isDigit))
  | rest => some ([], rest)

/-- A sign, if one is next. -/
def parseSign : List Char → List Char × List Char
  | '+' :: rest => (['+'], rest)
  | '-' :: rest => (['-'], rest)
  | rest => ([], rest)

/-- An exponent, if its letter is next: its characters. -/
def parseExponent : List Char → Option (List Char × List Char)
  | [] => some ([], [])
  | e :: rest =>
    if e = 'e' ∨ e = 'E' then
      let (sign, rest) := parseSign rest
      let digits := rest.takeWhile (·.isDigit)
      if digits.isEmpty then none
      else some (e :: (sign ++ digits), rest.dropWhile (·.isDigit))
    else some ([], e :: rest)

section

variable (finite : List Char → Bool)

/-- A number without its sign. An integer beyond 64 bits and a negative zero are doubles. -/
def parseUnsigned (negative : Bool) (text : List Char) : Option (Json × List Char) := do
  let digits := text.takeWhile (·.isDigit)
  let rest := text.dropWhile (·.isDigit)
  if digits.isEmpty ∨ (digits.head? = some '0' ∧ 1 < digits.length) then none
  else do
    let (fraction, rest) ← parseFraction rest
    let (exponent, rest) ← parseExponent rest
    let n := Nat.ofDigitChars 10 digits 0
    let literal := (if negative then ['-'] else []) ++ digits ++ fraction ++ exponent
    if fraction.isEmpty ∧ exponent.isEmpty ∧ !negative ∧ n < 2 ^ 64 then some (.int n, rest)
    else if fraction.isEmpty ∧ exponent.isEmpty ∧ negative ∧ 0 < n ∧ n ≤ 2 ^ 63 then
      some (.int (-n), rest)
    else if finite literal then some (.float literal, rest)
    else none

def parseNumber : List Char → Option (Json × List Char)
  | '-' :: rest => parseUnsigned finite true rest
  | text => parseUnsigned finite false text

mutual

/-- A value. `depth` is what is left of the nesting `serde_json` allows; `fuel` bounds the
recursion and is never the first to run out. -/
def parseValue : Nat → Nat → List Char → Option (Json × List Char)
  | 0, _, _ => none
  | fuel + 1, depth, text =>
    match skip text with
    | [] => none
    | c :: rest =>
      if c = 'n' then (eatWord "ull".toList rest).map (.null, ·)
      else if c = 't' then (eatWord "rue".toList rest).map (.bool true, ·)
      else if c = 'f' then (eatWord "alse".toList rest).map (.bool false, ·)
      else if c = '\x22' then (parseString rest).map fun (s, rest) => (.str s, rest)
      else if c = '[' then
        match depth with
        | depth + 2 =>
          match eat ']' rest with
          | some rest => some (.arr [], rest)
          | none => (parseElems fuel (depth + 1) rest).map fun (xs, rest) => (.arr xs, rest)
        | _ => none
      else if c = '\x7b' then
        match depth with
        | depth + 2 =>
          match eat '\x7d' rest with
          | some rest => some (.obj [], rest)
          | none =>
            (parseEntries fuel (depth + 1) rest).map fun (xs, rest) => (.obj xs, rest)
        | _ => none
      else parseNumber finite (c :: rest)

def parseElems : Nat → Nat → List Char → Option (List Json × List Char)
  | 0, _, _ => none
  | fuel + 1, depth, text => do
      let (elem, rest) ← parseValue fuel depth text
      match eat ']' rest with
      | some rest => some ([elem], rest)
      | none => do
          let rest ← eat ',' rest
          let (elems, rest) ← parseElems fuel depth rest
          some (elem :: elems, rest)

def parseEntries : Nat → Nat → List Char → Option (List (String × Json) × List Char)
  | 0, _, _ => none
  | fuel + 1, depth, text => do
      let rest ← eat '\x22' text
      let (key, rest) ← parseString rest
      let rest ← eat ':' rest
      let (value, rest) ← parseValue fuel depth rest
      match eat '\x7d' rest with
      | some rest => some ([(key, value)], rest)
      | none => do
          let rest ← eat ',' rest
          let (entries, rest) ← parseEntries fuel depth rest
          some ((key, value) :: entries, rest)

end

/-- A whole text: one value, and nothing but whitespace after it. -/
def parse (text : List Char) : Option Json := do
  let (value, rest) ← parseValue finite (text.length + 1) 128 text
  if (skip rest).isEmpty then some value else none

end

/-! ## Reading what was written -/

variable {c : Char} {rest : List Char}

theorem hexValue_digitChar {d : Nat} (small : d < 16) : hexValue (Nat.digitChar d) = some d := by
  have all : ∀ d < 16, hexValue (Nat.digitChar d) = some d := by decide
  exact all d small

theorem parseUnicode_control (control : c.toNat < 32) (rest : List Char) :
    parseUnicode
      ('0' :: '0' :: Nat.digitChar (c.toNat / 16) :: Nat.digitChar (c.toNat % 16) :: rest) =
      some (c, rest) := by
  have zero : hexValue '0' = some 0 := by decide
  have high := hexValue_digitChar (d := c.toNat / 16) (by omega)
  have low := hexValue_digitChar (d := c.toNat % 16) (by omega)
  have value : c.toNat / 16 * 16 + c.toNat % 16 = c.toNat := by omega
  simp only [parseUnicode, parseHex, zero, high, low, Option.bind_eq_bind, Option.bind_some,
    Nat.zero_mul, Nat.zero_add, value]
  rw [if_neg (by omega), if_neg (by omega), Char.ofNat_toNat]

theorem parseChars_escaped {text : List Char} (fuel : Nat)
    (found : parseEscape text = some (c, rest)) :
    parseChars (fuel + 1) ('\x5c' :: text) =
      (parseChars fuel rest).map fun (chars, rest) => (c :: chars, rest) := by
  rw [parseChars, if_neg (by decide), if_pos rfl, found, Option.bind_eq_bind, Option.bind_some]
  dsimp only
  cases parseChars fuel rest <;> rfl

/-- A written character is read back, and the text after it is what remains. -/
theorem parseChars_escapeChar (fuel : Nat) (c : Char) (rest : List Char) :
    parseChars (fuel + 1) (escapeChar c ++ rest) =
      (parseChars fuel rest).map fun (chars, rest) => (c :: chars, rest) := by
  unfold escapeChar
  split_ifs with quote backslash back tab line page carriage control
  · subst quote
    exact parseChars_escaped fuel rfl
  · subst backslash
    exact parseChars_escaped fuel rfl
  · subst back
    exact parseChars_escaped fuel rfl
  · subst tab
    exact parseChars_escaped fuel rfl
  · subst line
    exact parseChars_escaped fuel rfl
  · subst page
    exact parseChars_escaped fuel rfl
  · subst carriage
    exact parseChars_escaped fuel rfl
  · exact parseChars_escaped fuel (parseUnicode_control control rest)
  · rw [List.singleton_append, parseChars, if_neg quote, if_neg backslash, if_neg control]
    cases parseChars fuel rest <;> rfl

theorem parseChars_written (chars rest : List Char) {fuel : Nat} (enough : chars.length < fuel) :
    parseChars fuel (chars.flatMap escapeChar ++ '\x22' :: rest) = some (chars, rest) := by
  induction chars generalizing fuel with
  | nil =>
    obtain ⟨fuel, rfl⟩ := Nat.exists_eq_add_one_of_ne_zero (Nat.ne_of_gt enough)
    rw [List.flatMap_nil, List.nil_append, parseChars, if_pos rfl]
  | cons c chars ih =>
    rw [List.length_cons] at enough
    obtain ⟨fuel, rfl⟩ := Nat.exists_eq_add_one_of_ne_zero (Nat.ne_of_gt (Nat.zero_lt_of_lt enough))
    rw [List.flatMap_cons, List.append_assoc, parseChars_escapeChar, ih (by omega)]
    rfl

theorem one_le_escapeChar_length (c : Char) : 1 ≤ (escapeChar c).length := by
  unfold escapeChar
  split_ifs <;> exact Nat.le_add_left 1 _

theorem length_le_escaped (chars : List Char) :
    chars.length ≤ (chars.flatMap escapeChar).length := by
  induction chars with
  | nil => exact Nat.le_refl 0
  | cons c chars ih =>
    rw [List.flatMap_cons, List.length_append, List.length_cons]
    have one := one_le_escapeChar_length c
    omega

theorem parseString_written (s : String) (rest : List Char) :
    parseString (s.toList.flatMap escapeChar ++ '\x22' :: rest) = some (s, rest) := by
  have long := length_le_escaped s.toList
  rw [parseString, parseChars_written]
  · simp only [Option.bind_eq_bind, Option.bind_some, String.ofList_toList]
  · rw [List.length_append]
    omega

/-! ## Numbers -/

/-- What follows a number does not go on with it. -/
def Ends (rest : List Char) : Prop :=
  ∀ c ∈ rest.head?, c.isDigit = false ∧ c ≠ '.' ∧ c ≠ 'e' ∧ c ≠ 'E'

theorem ends_nil : Ends [] := nofun

theorem ends_cons (ends : c.isDigit = false ∧ c ≠ '.' ∧ c ≠ 'e' ∧ c ≠ 'E') : Ends (c :: rest) := by
  intro d head
  cases head
  exact ends

theorem toDigits_isDigit (n : Nat) : ∀ c ∈ Nat.toDigits 10 n, c.isDigit = true :=
  fun _ member => Nat.isDigit_of_mem_toDigits (by decide) (by decide) member

theorem takeWhile_digits {digits : List Char} (all : ∀ c ∈ digits, c.isDigit = true)
    (ends : Ends rest) : (digits ++ rest).takeWhile (·.isDigit) = digits := by
  rw [List.takeWhile_append_of_pos all]
  cases rest with
  | nil => rw [List.takeWhile_nil, List.append_nil]
  | cons c rest => rw [List.takeWhile_cons, if_neg (by simp [(ends c rfl).1]), List.append_nil]

theorem dropWhile_digits {digits : List Char} (all : ∀ c ∈ digits, c.isDigit = true)
    (ends : Ends rest) : (digits ++ rest).dropWhile (·.isDigit) = rest := by
  rw [List.dropWhile_append_of_pos all]
  cases rest with
  | nil => rfl
  | cons c rest => rw [List.dropWhile_cons, if_neg (by simp [(ends c rfl).1])]

/-- Only zero is written with a zero first. -/
theorem toDigits_head (n : Nat) (zero : (Nat.toDigits 10 n).head? = some '0') : n = 0 := by
  induction n using Nat.strongRecOn with
  | _ n ih =>
    by_cases single : n < 10
    · rw [Nat.toDigits_of_lt_base single, List.head?_cons, Option.some.injEq,
        Nat.digitChar_eq_zero] at zero
      exact zero
    · rw [Nat.toDigits_of_base_le (by decide) (by omega),
        List.head?_append_of_ne_nil _ Nat.toDigits_ne_nil] at zero
      have less := ih (n / 10) (by omega) zero
      omega

theorem parseFraction_ends (ends : Ends rest) : parseFraction rest = some ([], rest) := by
  unfold parseFraction
  split
  · exact absurd rfl (ends '.' rfl).2.1
  · rfl

theorem parseExponent_ends (ends : Ends rest) : parseExponent rest = some ([], rest) := by
  cases rest with
  | nil => rfl
  | cons c rest =>
    have other := ends c rfl
    rw [parseExponent, if_neg (not_or.mpr other.2.2)]

section

variable (finite : List Char → Bool)

variable {c : Char}

theorem parseUnsigned_written (negative : Bool) (n : Nat) {rest : List Char} (ends : Ends rest) :
    parseUnsigned finite negative (Nat.toDigits 10 n ++ rest) =
      if negative = false ∧ n < 2 ^ 64 then some (.int n, rest)
      else if negative = true ∧ 0 < n ∧ n ≤ 2 ^ 63 then some (.int (-n), rest)
      else if finite ((if negative then ['-'] else []) ++ Nat.toDigits 10 n) then
        some (.float ((if negative then ['-'] else []) ++ Nat.toDigits 10 n), rest)
      else none := by
  have digits := toDigits_isDigit n
  have plain : ¬ ((Nat.toDigits 10 n).isEmpty ∨
      (Nat.toDigits 10 n).head? = some '0' ∧ 1 < (Nat.toDigits 10 n).length) := by
    rintro (empty | ⟨zero, long⟩)
    · exact Nat.toDigits_ne_nil (List.isEmpty_iff.mp empty)
    · rw [toDigits_head n zero] at long
      exact absurd long (by decide)
  simp only [parseUnsigned, takeWhile_digits digits ends, dropWhile_digits digits ends,
    if_neg plain, parseFraction_ends ends, parseExponent_ends ends, Option.bind_eq_bind,
    Option.bind_some, Nat.ofDigitChars_ten_toDigits, List.isEmpty_nil, List.append_nil, true_and,
    Bool.not_eq_true']

/-- An integer of 64 bits, signed or not. -/
def fitsInt (n : Int) : Bool := -2 ^ 63 ≤ n ∧ n < 2 ^ 64

theorem parseNumber_written {n : Int} (fits : fitsInt n = true) {rest : List Char}
    (ends : Ends rest) : parseNumber finite (renderInt n ++ rest) = some (.int n, rest) := by
  simp only [fitsInt, decide_eq_true_eq] at fits
  cases n with
  | ofNat n =>
    have bound : n < 2 ^ 64 := by
      have := fits.2
      simp only [Int.ofNat_eq_natCast] at this
      omega
    have first : parseNumber finite (Nat.toDigits 10 n ++ rest) =
        parseUnsigned finite false (Nat.toDigits 10 n ++ rest) := by
      unfold parseNumber
      split
      · rename_i text minus
        have digit := toDigits_isDigit n
        rcases digits : Nat.toDigits 10 n with - | ⟨c, more⟩
        · exact absurd digits Nat.toDigits_ne_nil
        · rw [digits, List.cons_append, List.cons.injEq] at minus
          rw [digits, minus.1] at digit
          exact absurd (digit '-' List.mem_cons_self) (by decide)
      · rfl
    rw [renderInt, first, parseUnsigned_written finite false n ends, if_pos ⟨rfl, bound⟩]
    rfl
  | negSucc n =>
    have bound : n + 1 ≤ 2 ^ 63 := by
      have := fits.1
      omega
    rw [renderInt, List.cons_append, parseNumber, parseUnsigned_written finite true _ ends,
      if_neg (by simp), if_pos ⟨rfl, by omega, bound⟩]
    rfl

/-! ## Trees -/

mutual

/-- A tree that fits under the nesting limit, with integers of 64 bits and no literals. -/
def fits : Nat → Json → Bool
  | _, .null => true
  | _, .bool _ => true
  | _, .int n => fitsInt n
  | _, .float _ => false
  | _, .str _ => true
  | depth + 2, .arr elems => fitsAll (depth + 1) elems
  | _, .arr _ => false
  | depth + 2, .obj entries => fitsEntries (depth + 1) entries
  | _, .obj _ => false

def fitsAll : Nat → List Json → Bool
  | _, [] => true
  | depth, elem :: elems => fits depth elem && fitsAll depth elems

def fitsEntries : Nat → List (String × Json) → Bool
  | _, [] => true
  | depth, (_, value) :: entries => fits depth value && fitsEntries depth entries

end

theorem eat_next (visible : isSpace c = false) (rest : List Char) :
    eat c (c :: rest) = some rest := by
  simp [eat, skip, visible]

theorem eat_other {next : Char} (visible : isSpace next = false) (other : next ≠ c)
    (rest : List Char) : eat c (next :: rest) = none := by
  simp [eat, skip, visible, other]

/-- What a written tree starts with: no whitespace, and no closing bracket. -/
structure Opens (c : Char) : Prop where
  visible : isSpace c = false
  array : c ≠ ']'
  object : c ≠ '\x7d'

theorem opens_digit (digit : c.isDigit = true) : Opens c := by
  refine ⟨?_, ?_, ?_⟩
  · apply decide_eq_false
    rintro (rfl | rfl | rfl | rfl) <;> exact absurd digit (by decide)
  · rintro rfl
    exact absurd digit (by decide)
  · rintro rfl
    exact absurd digit (by decide)

theorem renderInt_head (n : Int) :
    ∃ c text, renderInt n = c :: text ∧ (c.isDigit = true ∨ c = '-') := by
  cases n with
  | ofNat n =>
    obtain ⟨c, text, digits⟩ := List.exists_cons_of_ne_nil (Nat.toDigits_ne_nil (n := n) (b := 10))
    exact ⟨c, text, digits, .inl (toDigits_isDigit n c (digits ▸ List.mem_cons_self))⟩
  | negSucc n => exact ⟨'-', _, rfl, .inr rfl⟩

theorem opens_number (number : c.isDigit = true ∨ c = '-') : Opens c := by
  rcases number with digit | rfl
  · exact opens_digit digit
  · exact ⟨by decide, by decide, by decide⟩

theorem render_head {depth : Nat} {value : Json} (fit : fits depth value = true) :
    ∃ c text, render value = c :: text ∧ Opens c := by
  cases value with
  | null => exact ⟨'n', _, rfl, by decide, by decide, by decide⟩
  | bool b => cases b <;> exact ⟨_, _, rfl, by decide, by decide, by decide⟩
  | int n =>
    obtain ⟨c, text, written, number⟩ := renderInt_head n
    exact ⟨c, text, written, opens_number number⟩
  | float literal => simp [fits] at fit
  | str s => exact ⟨'\x22', _, rfl, by decide, by decide, by decide⟩
  | arr elems => exact ⟨'[', _, rfl, by decide, by decide, by decide⟩
  | obj entries => exact ⟨'\x7b', _, rfl, by decide, by decide, by decide⟩

theorem parseValue_number (number : c.isDigit = true ∨ c = '-') (fuel depth : Nat)
    (text : List Char) :
    parseValue finite (fuel + 1) depth (c :: text) = parseNumber finite (c :: text) := by
  have other : c ≠ 'n' ∧ c ≠ 't' ∧ c ≠ 'f' ∧ c ≠ '\x22' ∧ c ≠ '[' ∧ c ≠ '\x7b' := by
    refine ⟨?_, ?_, ?_, ?_, ?_, ?_⟩ <;> rintro rfl <;> exact absurd number (by decide)
  obtain ⟨null, yes, no, quote, array, object⟩ := other
  rw [parseValue, skip, if_neg (by simp [(opens_number number).visible])]
  simp only [if_neg null, if_neg yes, if_neg no, if_neg quote, if_neg array, if_neg object]

theorem parseValue_array (fuel depth : Nat) (text : List Char) :
    parseValue finite (fuel + 1) (depth + 2) ('[' :: text) =
      match eat ']' text with
      | some rest => some (.arr [], rest)
      | none => (parseElems finite fuel (depth + 1) text).map fun (xs, rest) =>
          (.arr xs, rest) := by
  simp [parseValue, skip, isSpace]

theorem parseValue_object (fuel depth : Nat) (text : List Char) :
    parseValue finite (fuel + 1) (depth + 2) ('\x7b' :: text) =
      match eat '\x7d' text with
      | some rest => some (.obj [], rest)
      | none =>
        (parseEntries finite fuel (depth + 1) text).map fun (xs, rest) => (.obj xs, rest) := by
  simp [parseValue, skip, isSpace]

theorem ends_bracket (rest : List Char) : Ends (']' :: rest) := ends_cons (by decide)

theorem ends_brace (rest : List Char) : Ends ('\x7d' :: rest) := ends_cons (by decide)

theorem ends_comma (rest : List Char) : Ends (',' :: rest) := ends_cons (by decide)

mutual

theorem parseValue_render (value : Json) (fuel depth : Nat) (rest : List Char)
    (fit : fits depth value = true) (enough : (render value).length ≤ fuel) (ends : Ends rest) :
    parseValue finite fuel depth (render value ++ rest) = some (value, rest) := by
  obtain ⟨fuel, rfl⟩ : ∃ k, fuel = k + 1 := by
    obtain ⟨c, text, written, -⟩ := render_head fit
    rw [written, List.length_cons] at enough
    exact ⟨fuel - 1, by omega⟩
  cases value with
  | null => simp [render, parseValue, skip, isSpace, eatWord]
  | bool b => cases b <;> simp [render, parseValue, skip, isSpace, eatWord]
  | int n =>
    obtain ⟨c, text, written, number⟩ := renderInt_head n
    rw [render, written, List.cons_append, parseValue_number finite number, ← List.cons_append,
      ← written]
    exact parseNumber_written finite fit ends
  | float literal => simp [fits] at fit
  | str s =>
    rw [render, renderString, List.cons_append, List.append_assoc, List.singleton_append]
    simp [parseValue, skip, isSpace, parseString_written]
  | arr elems =>
    obtain ⟨depth, rfl⟩ : ∃ d, depth = d + 2 := by
      unfold fits at fit
      split at fit <;> simp_all
    rw [render, List.length_cons, List.length_append, List.length_singleton] at enough
    rw [render, List.cons_append, List.append_assoc, List.singleton_append, parseValue_array]
    cases elems with
    | nil => rw [renderElems, List.nil_append, eat_next (by decide)]
    | cons elem elems =>
      rw [fits] at fit
      have first := (Bool.and_eq_true _ _ ▸ (fitsAll.eq_2 (depth + 1) elem elems ▸ fit)).1
      obtain ⟨c, text, written, opens⟩ := render_head first
      have open' : eat ']' (renderElems (elem :: elems) ++ ']' :: rest) = none := by
        rw [renderElems, written, List.cons_append, List.cons_append]
        exact eat_other opens.visible opens.array _
      rw [open', parseElems_render elem elems fuel (depth + 1) rest fit (by omega)]
      rfl
  | obj entries =>
    obtain ⟨depth, rfl⟩ : ∃ d, depth = d + 2 := by
      unfold fits at fit
      split at fit <;> simp_all
    rw [render, List.length_cons, List.length_append, List.length_singleton] at enough
    rw [render, List.cons_append, List.append_assoc, List.singleton_append, parseValue_object]
    cases entries with
    | nil => rw [renderEntries, List.nil_append, eat_next (by decide)]
    | cons entry entries =>
      obtain ⟨key, value⟩ := entry
      rw [fits] at fit
      have open' : eat '\x7d' (renderEntries ((key, value) :: entries) ++ '\x7d' :: rest) =
          none := by
        rw [renderEntries, renderString, List.cons_append, List.cons_append]
        exact eat_other (by decide) (by decide) _
      rw [open', parseEntries_render key value entries fuel (depth + 1) rest fit (by omega)]
      rfl
termination_by fuel

theorem parseElems_render (elem : Json) (elems : List Json) (fuel depth : Nat) (rest : List Char)
    (fit : fitsAll depth (elem :: elems) = true)
    (enough : (renderElems (elem :: elems)).length < fuel) :
    parseElems finite fuel depth (renderElems (elem :: elems) ++ ']' :: rest) =
      some (elem :: elems, rest) := by
  obtain ⟨fuel, rfl⟩ : ∃ k, fuel = k + 1 := ⟨fuel - 1, by omega⟩
  rw [fitsAll, Bool.and_eq_true] at fit
  cases elems with
  | nil =>
    simp only [renderElems, List.isEmpty_nil, ↓reduceIte, List.append_nil] at enough ⊢
    rw [parseElems, parseValue_render elem fuel depth _ fit.1 (by omega) (ends_bracket rest),
      Option.bind_eq_bind, Option.bind_some]
    dsimp only
    rw [eat_next (by decide)]
  | cons next elems =>
    have long : 1 ≤ (render elem).length := by
      obtain ⟨c, text, written, -⟩ := render_head fit.1
      rw [written]
      exact Nat.le_add_left 1 _
    rw [renderElems, if_neg (by simp), List.length_append, List.length_cons] at enough
    rw [renderElems, if_neg (by simp), List.append_assoc, List.cons_append]
    rw [parseElems, parseValue_render elem fuel depth _ fit.1 (by omega) (ends_comma _),
      Option.bind_eq_bind, Option.bind_some]
    dsimp only
    rw [eat_other (by decide) (by decide), eat_next (by decide), Option.bind_eq_bind,
      Option.bind_some, parseElems_render next elems fuel depth rest fit.2 (by omega)]
    rfl
termination_by fuel

theorem parseEntries_render (key : String) (value : Json) (entries : List (String × Json))
    (fuel depth : Nat) (rest : List Char) (fit : fitsEntries depth ((key, value) :: entries) = true)
    (enough : (renderEntries ((key, value) :: entries)).length < fuel) :
    parseEntries finite fuel depth (renderEntries ((key, value) :: entries) ++ '\x7d' :: rest) =
      some ((key, value) :: entries, rest) := by
  obtain ⟨fuel, rfl⟩ : ∃ k, fuel = k + 1 := ⟨fuel - 1, by omega⟩
  rw [fitsEntries, Bool.and_eq_true] at fit
  have entry (tail : List Char) (ends : Ends tail) (long : (render value).length ≤ fuel) :
      parseEntries finite (fuel + 1) depth (renderString key ++ ':' :: (render value ++ tail)) =
        (match eat '\x7d' tail with
        | some rest => some ([(key, value)], rest)
        | none => do
            let rest ← eat ',' tail
            let (entries, rest) ← parseEntries finite fuel depth rest
            some ((key, value) :: entries, rest)) := by
    rw [renderString, List.cons_append, List.append_assoc, List.singleton_append, parseEntries,
      eat_next (by decide), Option.bind_eq_bind, Option.bind_some, parseString_written,
      Option.bind_eq_bind, Option.bind_some]
    dsimp only
    rw [eat_next (by decide), Option.bind_some, Option.bind_eq_bind,
      parseValue_render value fuel depth tail fit.1 long ends, Option.bind_some]
  cases entries with
  | nil =>
    simp only [renderEntries, List.isEmpty_nil, ↓reduceIte, List.append_nil, List.append_assoc,
      List.cons_append, List.length_append, List.length_cons] at enough ⊢
    rw [entry _ (ends_brace rest) (by omega), eat_next (by decide)]
  | cons next entries =>
    obtain ⟨nextKey, nextValue⟩ := next
    rw [renderEntries, if_neg (by simp), List.length_append, List.length_cons,
      List.length_append, List.length_cons] at enough
    rw [renderEntries, if_neg (by simp), List.append_assoc, List.cons_append, List.append_assoc,
      List.cons_append, entry _ (ends_comma _) (by omega), eat_other (by decide) (by decide),
      eat_next (by decide)]
    dsimp only
    rw [Option.bind_eq_bind, Option.bind_some,
      parseEntries_render nextKey nextValue entries fuel depth rest fit.2 (by omega)]
    rfl
termination_by fuel

end

/-- What was written is read back. -/
theorem parse_render {value : Json} (fit : fits 128 value = true) :
    parse finite (render value) = some value := by
  have read := parseValue_render finite value ((render value).length + 1) 128 [] fit
    (Nat.le_succ _) ends_nil
  rw [List.append_nil] at read
  rw [parse, read]
  rfl

end

end Spate.JsonText
