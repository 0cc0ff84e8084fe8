import Khefin.CStandardLibrary
import Mathlib.Data.List.DropRight

/-! # Words, lines and numbers as a shell takes them -/

namespace Shell
open CLibrary

def text (s : String) : Bytes := (literal s).bytes

/-- `[[:space:]]` -/
def isSpace (c : UInt8) : Bool := c = 0x20 || (0x09 ≤ c && c ≤ 0x0d)

def lines (input : Bytes) : List Bytes := input.splitOn newline

def unlines (output : List Bytes) : Bytes := [newline].intercalate output

/-- A command substitution drops the newlines at the end. -/
def substituted (output : List Bytes) : Bytes := (unlines output).rdropWhile (· = newline)

def isIfsSpace (c : UInt8) : Bool := c = 0x20 || c = 0x09 || c = newline

/-- The value of a variable that is given a line by `read -r`, or a word that is not quoted. -/
def trimmed (word : Bytes) : Bytes := (word.dropWhile isIfsSpace).rdropWhile isIfsSpace

def isDigit (c : UInt8) : Bool := 0x30 ≤ c && c ≤ 0x39

def digitsValue (digits : Bytes) : ℕ := digits.foldl (fun n c => 10 * n + (c.toNat - 0x30)) 0

/-- The number that `test` takes a word for: blanks, a sign, digits and blanks, in 64 bits. -/
def testInteger (word : Bytes) : Option ℤ :=
  let unsigned := word.dropWhile isSpace
  let (negative, body) :=
    match unsigned with
    | 0x2d :: body => (true, body)
    | 0x2b :: body => (false, body)
    | body => (false, body)
  let digits := body.takeWhile isDigit
  let value : ℤ := if negative then -digitsValue digits else digitsValue digits
  if digits ≠ [] ∧ (body.dropWhile isDigit).all isSpace ∧
      -0x8000000000000000 ≤ value ∧ value < 0x8000000000000000 then
    some value
  else none

theorem lines_of_single {line : Bytes} (h : newline ∉ line) : lines line = [line] :=
  List.splitOnP_eq_singleton fun c hc => by
    rw [beq_eq_false_iff_ne]
    rintro rfl
    exact h hc

theorem substituted_single {line : Bytes} (h : newline ∉ line) : substituted [line] = line := by
  rw [substituted, unlines, List.intercalate_singleton, List.rdropWhile_eq_self_iff]
  intro hne hlast
  have hnewline : line.getLast hne = newline := by simpa using hlast
  exact h (hnewline ▸ List.getLast_mem hne)

end Shell
