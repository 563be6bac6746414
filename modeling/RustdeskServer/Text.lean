import Mathlib.Data.List.Infix
import Mathlib.Data.Int.Notation
import Mathlib.Algebra.Group.Nat.Defs

/-!
# Strings as Rust handles them

The string functions the console and the relay lists are written with, on Lean's
strings through their lists of characters.  Case mapping and the escapes of `{:?}` come
from the Unicode tables; they are a parameter, so that what is proved holds for every
such table.

## Main definitions

* `Unicode` — case mapping and `Debug` for strings.
* `Text.trim`, `Text.split`, `Text.splitOnce` — `str::trim`, `split`, `split_once`.
* `Text.parseUnsigned`, `Text.parseSigned` — `str::parse` for integers.
* `Text.lt` — the order of strings.
-/

namespace RustdeskServer

/-- What Rust's string functions take from the Unicode tables. -/
structure Unicode where
  /-- `str::to_lowercase`. -/
  toLowercase : String → String
  /-- `str::to_uppercase`. -/
  toUppercase : String → String
  /-- `format!("{:?}", s)`. -/
  debug : String → String

namespace Text

/-- `char::is_whitespace`: the property `White_Space`. -/
def isWhitespace (c : Char) : Bool :=
  let n := c.toNat
  (9 ≤ n && n ≤ 13) || n = 32 || n = 0x85 || n = 0xa0 || n = 0x1680 ||
    (0x2000 ≤ n && n ≤ 0x200a) || n = 0x2028 || n = 0x2029 || n = 0x202f || n = 0x205f ||
    n = 0x3000

/-- `str::trim`, on characters. -/
def trimChars (l : List Char) : List Char :=
  ((l.dropWhile isWhitespace).reverse.dropWhile isWhitespace).reverse

/-- `str::trim`. -/
def trim (s : String) : String :=
  String.ofList (((s.toList.dropWhile isWhitespace).reverse.dropWhile isWhitespace).reverse)

theorem dropWhile_eq {l : List Char} (h : ∀ c ∈ l.head?, isWhitespace c = false) :
    l.dropWhile isWhitespace = l := by
  cases l with
  | nil => rfl
  | cons c l => rw [List.dropWhile_cons_of_neg (by simp [h c rfl])]

/-- A text without white space at its ends is left alone. -/
theorem trimChars_eq {l : List Char} (h : ∀ c ∈ l.head?, isWhitespace c = false)
    (h' : ∀ c ∈ l.getLast?, isWhitespace c = false) : trimChars l = l := by
  rw [trimChars, dropWhile_eq h, dropWhile_eq (by simpa using h'), List.reverse_reverse]

/-- So is one without any. -/
theorem trimChars_of_all {l : List Char} (h : ∀ c ∈ l, isWhitespace c = false) :
    trimChars l = l :=
  trimChars_eq (fun c hc => h c (List.mem_of_mem_head? hc))
    fun c hc => h c (List.mem_of_mem_getLast? hc)

/-- `str::split` at a character. -/
def split (sep : Char) (s : String) : List String := (s.toList.splitOn sep).map String.ofList

/-- `str::contains` for a character. -/
def contains (c : Char) (s : String) : Bool := s.toList.contains c

/-- `str::contains` for a string. -/
def containsStr (t s : String) : Bool := decide (t.toList <:+: s.toList)

/-- `str::replace` of a character by another. -/
def replaceChar (a b : Char) (s : String) : String :=
  String.ofList (s.toList.map fun c => if c = a then b else c)

/-- `str::strip_prefix` for a character. -/
def stripHead (c : Char) (s : String) : Option String :=
  match s.toList with
  | c' :: cs => if c' = c then some (String.ofList cs) else none
  | [] => none

/-- `str::split_once`, on characters. -/
def splitOnceChars (sep : Char) : List Char → Option (List Char × List Char)
  | [] => none
  | c :: cs => if c = sep then some ([], cs) else (splitOnceChars sep cs).map fun p => (c :: p.1, p.2)

/-- `str::split_once` at a character. -/
def splitOnce (sep : Char) (s : String) : Option (String × String) :=
  (splitOnceChars sep s.toList).map fun p => (String.ofList p.1, String.ofList p.2)

/-- The value of a digit. -/
def digit? (c : Char) : Option ℕ := if '0' ≤ c ∧ c ≤ '9' then some (c.toNat - 48) else none

/-- Decimal digits after the value `n`; `none` once the value passes `max`. -/
def digits (max : ℕ) : List Char → ℕ → Option ℕ
  | [], n => some n
  | c :: cs, n => do
    let d ← digit? c
    if n * 10 + d ≤ max then digits max cs (n * 10 + d) else none

/-- `str::parse` for an unsigned integer type with the largest value `max`: digits,
after a plus sign if there is one. -/
def parseUnsigned (max : ℕ) (s : String) : Option ℕ :=
  match s.toList with
  | [] => none
  | '+' :: c :: cs => digits max (c :: cs) 0
  | c :: cs => digits max (c :: cs) 0

/-- `str::parse` for a signed integer type of the given width. -/
def parseSigned (bits : ℕ) (s : String) : Option ℤ :=
  match s.toList with
  | '-' :: c :: cs => (digits (2 ^ (bits - 1)) (c :: cs) 0).map fun n => -(n : ℤ)
  | _ => (parseUnsigned (2 ^ (bits - 1) - 1) s).map fun n => (n : ℤ)

/-- `<` on characters in order: the order of strings, byte by byte, which for UTF-8 is by
code point. -/
def ltChars : List Char → List Char → Bool
  | _, [] => false
  | [], _ :: _ => true
  | a :: as, b :: bs => decide (a.toNat < b.toNat) || (a == b && ltChars as bs)

/-- `<` on strings. -/
def lt (s t : String) : Bool := ltChars s.toList t.toList

/-- `writeln!`. -/
def line (s : String) : String := s ++ "\n"

/-- Lines one after another. -/
def lines (l : List String) : String := String.join (l.map line)

end Text

example : Text.trim "\t rs a b \n" = "rs a b" := by decide
example : Text.parseUnsigned 65535 "+080" = some 80 := by decide

/-- Case mapping of ASCII letters, and quotes around a string: what concrete runs, whose
texts are plain, use. -/
def Unicode.ascii : Unicode where
  toLowercase s := String.ofList (s.toList.map Char.toLower)
  toUppercase s := String.ofList (s.toList.map Char.toUpper)
  debug s := "\"" ++ s ++ "\""

end RustdeskServer
