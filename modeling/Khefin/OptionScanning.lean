import Mathlib.Data.List.TakeWhile
import Mathlib.Data.Nat.Notation

/-! # Splitting words into options and operands

Options have a letter or a long name. Letters without a value may share a word, a value
stands in the word of its option or is the next word, and a long name may be cut short as
long as that leaves one meaning. Operands may stand anywhere. -/

namespace OptionScanning

variable {α : Type} [DecidableEq α]

/-- A long name, and the letter that stands for the same option. -/
structure LongOption (α : Type) where
  name : List α
  takesValue : Bool
  letter : α
  deriving DecidableEq

/-- The options of a program; each letter says whether a value goes with it. -/
structure Table (α : Type) [DecidableEq α] where
  dash : α
  equals : α
  letters : List (α × Bool)
  long : List (LongOption α)
  dash_not_letter : letters.lookup dash = none

/-- Letters, each followed by a mark when it takes a value. -/
def markedLetters (mark : α) : List α → List (α × Bool)
  | [] => []
  | [x] => [(x, false)]
  | x :: y :: rest =>
    if y = mark then (x, true) :: markedLetters mark rest
    else (x, false) :: markedLetters mark (y :: rest)

/-- An option found, without a letter when it is none of the program's or its value is wrong. -/
structure Report (α : Type) where
  letter : Option α
  value : List α

structure Scan (α : Type) where
  reports : List (Report α)
  operands : List (List α)

/-- What a word is: options come with the letter that takes its value from the next word. -/
inductive Reading (α : Type)
  | operand
  | terminator
  | options (reports : List (Report α)) (awaiting : Option α)

namespace Table

variable (t : Table α)

/-- The letters behind a single dash. -/
def readLetters : List α → List (Report α) × Option α
  | [] => ([], none)
  | x :: xs =>
    match t.letters.lookup x with
    | none => (⟨none, []⟩ :: (readLetters xs).1, (readLetters xs).2)
    | some false => (⟨some x, []⟩ :: (readLetters xs).1, (readLetters xs).2)
    | some true => if xs = [] then ([], some x) else ([⟨some x, xs⟩], none)

/-- The option of this name, or else the one that the beginning of a name stands for. -/
def named (name : List α) : Option (LongOption α) :=
  match t.long.find? fun o => o.name = name with
  | some o => some o
  | none =>
    match t.long.filter fun o => name <+: o.name with
    | [] => none
    | o :: others =>
      if others.all fun x => x.takesValue = o.takesValue ∧ x.letter = o.letter then some o else none

/-- What stands behind two dashes. -/
def readName (body : List α) : List (Report α) × Option α :=
  match t.named (body.takeWhile (· ≠ t.equals)), body.dropWhile (· ≠ t.equals) with
  | none, _ => ([⟨none, []⟩], none)
  | some o, [] => if o.takesValue = true then ([], some o.letter) else ([⟨some o.letter, []⟩], none)
  | some o, _ :: value =>
    if o.takesValue = true then ([⟨some o.letter, value⟩], none) else ([⟨none, []⟩], none)

def read : List α → Reading α
  | x :: y :: body =>
    if x ≠ t.dash then .operand
    else if y ≠ t.dash then .options (t.readLetters (y :: body)).1 (t.readLetters (y :: body)).2
    else if body = [] then .terminator
    else .options (t.readName body).1 (t.readName body).2
  | _ => .operand

/-- The words in order, with the letter still waiting for its value. -/
def scan : Option α → List (List α) → Scan α
  | none, [] => ⟨[], []⟩
  | some _, [] => ⟨[⟨none, []⟩], []⟩
  | some letter, word :: words =>
    ⟨⟨some letter, word⟩ :: (scan none words).reports, (scan none words).operands⟩
  | none, word :: words =>
    match t.read word with
    | .operand => ⟨(scan none words).reports, word :: (scan none words).operands⟩
    | .terminator => ⟨[], words⟩
    | .options reports awaiting =>
      ⟨reports ++ (scan awaiting words).reports, (scan awaiting words).operands⟩

end Table

/-! ## Arguments as they are written -/

/-- An operand, letters with the last one's value in the same word or behind it, or a long name. -/
inductive Spelling (α : Type)
  | operand (word : List α)
  | letters (first : α) (others : List α)
  | letterValue (flags : List α) (letter : α) (value : List α) (attached : Bool)
  | longName (name : List α)
  | longValue (name value : List α) (attached : Bool)

namespace Spelling

variable (t : Table α)

def words : Spelling α → List (List α)
  | operand word => [word]
  | letters first others => [t.dash :: first :: others]
  | letterValue flags letter value true => [t.dash :: (flags ++ letter :: value)]
  | letterValue flags letter value false => [t.dash :: (flags ++ [letter]), value]
  | longName name => [t.dash :: t.dash :: name]
  | longValue name value true => [t.dash :: t.dash :: (name ++ t.equals :: value)]
  | longValue name value false => [t.dash :: t.dash :: name, value]

/-- A name that no option has is taken for one without a value. -/
def Fits : Spelling α → Prop
  | operand word => t.read word = .operand
  | letters first others => ∀ x ∈ first :: others, t.letters.lookup x = some false
  | letterValue flags letter value attached =>
    (∀ x ∈ flags, t.letters.lookup x = some false) ∧ t.letters.lookup letter = some true ∧
      (attached = true → value ≠ [])
  | longName name => name ≠ [] ∧ t.equals ∉ name ∧ ∀ o, t.named name = some o → o.takesValue = false
  | longValue name _ _ =>
    name ≠ [] ∧ t.equals ∉ name ∧ ∃ o, t.named name = some o ∧ o.takesValue = true

def reports : Spelling α → List (Report α)
  | operand _ => []
  | letters first others => (first :: others).map fun x => ⟨some x, []⟩
  | letterValue flags letter value _ => (flags.map fun x => ⟨some x, []⟩) ++ [⟨some letter, value⟩]
  | longName name => [⟨(t.named name).map LongOption.letter, []⟩]
  | longValue name value _ => [⟨(t.named name).map LongOption.letter, value⟩]

def operands : Spelling α → List (List α)
  | operand word => [word]
  | _ => []

end Spelling

/-! ## Scanning what was written -/

variable {t : Table α} {words : List (List α)}

theorem scan_of_operand {word : List α} (h : t.read word = .operand) :
    t.scan none (word :: words) =
      ⟨(t.scan none words).reports, word :: (t.scan none words).operands⟩ := by
  rw [Table.scan, h]

theorem scan_of_options {word : List α} {reports : List (Report α)} {awaiting : Option α}
    (h : t.read word = .options reports awaiting) :
    t.scan none (word :: words) =
      ⟨reports ++ (t.scan awaiting words).reports, (t.scan awaiting words).operands⟩ := by
  rw [Table.scan, h]

theorem readLetters_of_flags {flags : List α} (h : ∀ x ∈ flags, t.letters.lookup x = some false)
    (rest : List α) :
    t.readLetters (flags ++ rest) =
      ((flags.map fun x => ⟨some x, []⟩) ++ (t.readLetters rest).1, (t.readLetters rest).2) := by
  induction flags with
  | nil => rfl
  | cons x flags ih =>
    have hx := h x List.mem_cons_self
    have hrest := ih fun y hy => h y (List.mem_cons_of_mem x hy)
    simp only [List.cons_append, Table.readLetters, hx, hrest, List.map_cons]

/-- A word of letters: the first of them is not taken for a second dash. -/
theorem read_letters {x : α} {xs : List α} {takesValue : Bool}
    (h : t.letters.lookup x = some takesValue) :
    t.read (t.dash :: x :: xs) =
      .options (t.readLetters (x :: xs)).1 (t.readLetters (x :: xs)).2 := by
  have hdash : x ≠ t.dash := by
    rintro rfl
    simp [t.dash_not_letter] at h
  rw [Table.read, if_neg (not_not.mpr rfl), if_pos hdash]

theorem read_flags {flags : List α} (h : ∀ x ∈ flags, t.letters.lookup x = some false) {letter : α}
    {takesValue : Bool} (hletter : t.letters.lookup letter = some takesValue) (rest : List α) :
    t.read (t.dash :: (flags ++ letter :: rest)) =
      .options ((flags.map fun x => ⟨some x, []⟩) ++ (t.readLetters (letter :: rest)).1)
        (t.readLetters (letter :: rest)).2 := by
  have hread := readLetters_of_flags h (letter :: rest)
  cases flags with
  | nil => exact read_letters hletter
  | cons x flags =>
    have hword : t.read (t.dash :: x :: (flags ++ letter :: rest)) = .options _ _ :=
      read_letters (h x List.mem_cons_self)
    rw [← List.cons_append, hread] at hword
    exact hword

theorem read_name {body : List α} (h : body ≠ []) :
    t.read (t.dash :: t.dash :: body) = .options (t.readName body).1 (t.readName body).2 := by
  rw [Table.read, if_neg (not_not.mpr rfl), if_neg (not_not.mpr rfl), if_neg h]

theorem readName_of_not_mem {name : List α} (h : t.equals ∉ name) :
    t.readName name = match t.named name with
      | none => ([⟨none, []⟩], none)
      | some o =>
        if o.takesValue = true then ([], some o.letter) else ([⟨some o.letter, []⟩], none) := by
  have hall : ∀ x ∈ name, decide (x ≠ t.equals) = true := fun x hx => by
    simpa using ne_of_mem_of_not_mem hx h
  have htake : name.takeWhile (· ≠ t.equals) = name := List.takeWhile_eq_self_iff.mpr hall
  have hdrop : name.dropWhile (· ≠ t.equals) = [] := List.dropWhile_eq_nil_iff.mpr hall
  rw [Table.readName, htake, hdrop]
  cases t.named name <;> rfl

theorem readName_of_value {name value : List α} (h : t.equals ∉ name) {o : LongOption α}
    (ho : t.named name = some o) (hvalue : o.takesValue = true) :
    t.readName (name ++ t.equals :: value) = ([⟨some o.letter, value⟩], none) := by
  have hall : ∀ x ∈ name, decide (x ≠ t.equals) = true := fun x hx => by
    simpa using ne_of_mem_of_not_mem hx h
  have htake : (name ++ t.equals :: value).takeWhile (· ≠ t.equals) = name := by
    rw [List.takeWhile_append_of_pos hall]
    simp
  have hdrop : (name ++ t.equals :: value).dropWhile (· ≠ t.equals) = t.equals :: value := by
    rw [List.dropWhile_append_of_pos hall]
    simp
  rw [Table.readName, htake, hdrop, ho]
  exact if_pos hvalue

/-- One argument is reported as it was meant, and scanning goes on behind it. -/
theorem scan_spelling {a : Spelling α} (h : a.Fits t) :
    t.scan none (a.words t ++ words) =
      ⟨a.reports t ++ (t.scan none words).reports, a.operands ++ (t.scan none words).operands⟩ := by
  cases a with
  | operand word => exact scan_of_operand h
  | letters first others =>
    have hread := readLetters_of_flags h []
    rw [List.append_nil, Table.readLetters, List.append_nil] at hread
    have hword : t.read (t.dash :: first :: others) = .options _ _ :=
      read_letters (h first List.mem_cons_self)
    rw [hread] at hword
    exact scan_of_options hword
  | letterValue flags letter value attached =>
    obtain ⟨hflags, hletter, hvalue⟩ := h
    cases attached with
    | true =>
      have hword := read_flags hflags hletter value
      rw [Table.readLetters, hletter] at hword
      simp only [if_neg (hvalue rfl)] at hword
      exact scan_of_options hword
    | false =>
      have hword := read_flags hflags hletter []
      rw [Table.readLetters, hletter] at hword
      simp only [if_true, List.append_nil] at hword
      rw [Spelling.reports, List.append_assoc]
      exact scan_of_options hword
  | longName name =>
    obtain ⟨hne, hequals, htakes⟩ := h
    have hword := read_name (t := t) hne
    rw [readName_of_not_mem hequals] at hword
    cases hnamed : t.named name with
    | none =>
      rw [hnamed] at hword
      rw [Spelling.reports, hnamed]
      exact scan_of_options hword
    | some o =>
      rw [hnamed] at hword
      rw [Spelling.reports, hnamed]
      simp only [htakes o hnamed] at hword
      exact scan_of_options hword
  | longValue name value attached =>
    obtain ⟨hne, hequals, o, hnamed, htakes⟩ := h
    cases attached with
    | true =>
      have hword : t.read (t.dash :: t.dash :: (name ++ t.equals :: value)) = .options _ _ :=
        read_name (by simp)
      rw [readName_of_value hequals hnamed htakes] at hword
      rw [Spelling.reports, hnamed]
      exact scan_of_options hword
    | false =>
      have hword := read_name (t := t) hne
      rw [readName_of_not_mem hequals, hnamed] at hword
      simp only [htakes] at hword
      rw [Spelling.reports, hnamed]
      exact scan_of_options hword

/-- Whatever is written as spellings is reported in order, with the operands behind it. -/
theorem scan_spellings {spellings : List (Spelling α)} (h : ∀ a ∈ spellings, a.Fits t) :
    t.scan none (spellings.flatMap fun a => a.words t) =
      ⟨spellings.flatMap fun a => a.reports t, spellings.flatMap Spelling.operands⟩ := by
  induction spellings with
  | nil => rfl
  | cons a spellings ih =>
    rw [List.flatMap_cons, scan_spelling (h a List.mem_cons_self),
      ih fun x hx => h x (List.mem_cons_of_mem a hx)]
    rfl

end OptionScanning
