import Khefin.LineStreams
import Khefin.ShellWords

/-! # Lines that commands pass on

What a filter or a loop takes from its input where another command has written lines to it. -/

namespace Shell
open CLibrary

/-- The turns of `while IFS= read -r`: for a last line that is not ended there is none. -/
def readLines (input : Bytes) : List Bytes := (lines input).dropLast

/-- The lines of a filter's input, which may lack the last newline. -/
def inputLines (input : Bytes) : List Bytes :=
  readLines input ++ ((lines input).getLast?.filter (· ≠ [])).toList

/-- A filter that prints at most one line for each. -/
def filtered (print : Bytes → Option Bytes) (input : Bytes) : Bytes :=
  joinLines ((inputLines input).filterMap print)

/-- `cut -f` on a line, with the fields counted from zero. -/
def cutField (delimiter : UInt8) (field : ℕ) (line : Bytes) : Bytes :=
  if delimiter ∈ line then ((line.splitOn delimiter)[field]?).getD [] else line

def slash : UInt8 := 0x2f

/-- The last part of a path, in front of the slashes at its end. -/
def lastComponent (path : Bytes) : Bytes :=
  ((path.rdropWhile (· = slash)).splitOn slash).getLast?.getD []

/-- `basename` -/
def basename (path : Bytes) : Bytes :=
  if path ≠ [] ∧ path.rdropWhile (· = slash) = [] then [slash] else lastComponent path

section Streams

variable {printed : List Bytes}

theorem lines_joinLines (h : ∀ line ∈ printed, newline ∉ line) :
    lines (joinLines printed) = printed ++ [[]] := by
  induction printed with
  | nil => rfl
  | cons line printed ih =>
    obtain ⟨hline, hothers⟩ := List.forall_mem_cons.mp h
    rw [joinLines_cons, lines, List.splitOn_append_cons_self_of_not_mem hline, List.cons_append]
    exact congrArg _ (ih hothers)

/-- A loop has a turn for each line that was printed. -/
theorem readLines_joinLines (h : ∀ line ∈ printed, newline ∉ line) :
    readLines (joinLines printed) = printed := by
  rw [readLines, lines_joinLines h, List.dropLast_concat]

theorem inputLines_joinLines (h : ∀ line ∈ printed, newline ∉ line) :
    inputLines (joinLines printed) = printed := by
  rw [inputLines, readLines_joinLines h, lines_joinLines h, List.getLast?_concat]
  exact List.append_nil _

theorem filtered_joinLines (h : ∀ line ∈ printed, newline ∉ line) (print : Bytes → Option Bytes) :
    filtered print (joinLines printed) = joinLines (printed.filterMap print) := by
  rw [filtered, inputLines_joinLines h]

/-- `wc -l` counts nothing only where nothing was printed. -/
theorem count_newline_joinLines : (joinLines printed).count newline = 0 ↔ printed = [] := by
  cases printed with
  | nil => simp [joinLines]
  | cons line printed => simp [joinLines_cons]

end Streams

/-- The field between the first two delimiters. -/
theorem cutField_one {delimiter : UInt8} {before field : Bytes} (after : Bytes)
    (hbefore : delimiter ∉ before) (hfield : delimiter ∉ field) :
    cutField delimiter 1 (before ++ delimiter :: (field ++ delimiter :: after)) = field := by
  rw [cutField, if_pos (by simp), List.splitOn_append_cons_self_of_not_mem hbefore,
    List.splitOn_append_cons_self_of_not_mem hfield]
  rfl

section Paths

variable {name : Bytes} (directory : Bytes) (hne : name ≠ []) (hname : slash ∉ name)
include hne hname

theorem rdropWhile_slash_append :
    (directory ++ slash :: name).rdropWhile (· = slash) = directory ++ slash :: name := by
  rw [List.rdropWhile_eq_self_iff]
  intro hpath hlast
  rw [List.getLast_append_of_ne_nil hpath (List.cons_ne_nil _ _), List.getLast_cons hne] at hlast
  exact hname (of_decide_eq_true hlast ▸ List.getLast_mem hne)

theorem lastComponent_append : lastComponent (directory ++ slash :: name) = name := by
  rw [lastComponent, rdropWhile_slash_append directory hne hname, List.splitOn_append_cons_self,
    List.splitOn_eq_singleton hname, List.getLast?_concat]
  rfl

theorem basename_append : basename (directory ++ slash :: name) = name := by
  rw [basename, rdropWhile_slash_append directory hne hname, if_neg (by simp),
    lastComponent_append directory hne hname]

end Paths

end Shell
