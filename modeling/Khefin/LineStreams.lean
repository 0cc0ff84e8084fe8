import Khefin.CStandardLibrary

/-! # A stream read line by line

Calls of `fgets`, one after the other, cut a stream into pieces. A line and its newline are
one piece as long as both fit in front of the terminator. The newline of a line that just
fits is left for the next call, and from there on every call is one line behind. -/

namespace CLibrary

/-- The stream that consists of these lines. -/
def joinLines (lines : List Bytes) : Bytes := lines.flatMap (· ++ [newline])

/-- The pieces that successive calls of `fgets` read before the stream ends, and what they leave. -/
def readPieces : List ℕ → Bytes → List Bytes × Bytes
  | [], stream => ([], stream)
  | size :: sizes, stream =>
    match fgets size stream with
    | none => ([], stream)
    | some (piece, rest) => (piece :: (readPieces sizes rest).1, (readPieces sizes rest).2)

/-- The string that is left of a piece. -/
def entered (piece : Bytes) : CString := stripNewline (cString piece)

/-- Every call takes its own line, cut at the size it was given. -/
def InStep (sizes : List ℕ) (lines : List Bytes) (stream : Bytes) : Prop :=
  ((readPieces sizes stream).1.take lines.length).map (fun piece => (entered piece).bytes) =
    List.zipWith List.take sizes lines

/-- Each line that is read fits with its newline, except that one may lack room for the newline
when nothing but empty lines is read behind it. -/
def LinesFit : List ℕ → List Bytes → Prop
  | size :: sizes, line :: lines =>
    (line.length + 1 < size ∧ LinesFit sizes lines) ∨
      (line.length + 1 = size ∧ ∀ l ∈ lines.take sizes.length, l = [])
  | _, _ => True

theorem joinLines_cons (line : Bytes) (lines : List Bytes) :
    joinLines (line :: lines) = line ++ newline :: joinLines lines := by
  simp [joinLines]

theorem readPieces_length_le (sizes : List ℕ) (stream : Bytes) :
    (readPieces sizes stream).1.length ≤ sizes.length := by
  induction sizes generalizing stream with
  | nil => simp [readPieces]
  | cons size sizes ih =>
    rw [readPieces]
    split
    · simp
    · next piece rest _ => simpa using ih rest

theorem readPieces_nil (sizes : List ℕ) : readPieces sizes [] = ([], []) := by
  cases sizes <;> rfl

/-- Later calls go on where the earlier ones stopped. -/
theorem readPieces_append (sizes sizes' : List ℕ) (stream : Bytes) :
    readPieces (sizes ++ sizes') stream =
      ((readPieces sizes stream).1 ++ (readPieces sizes' (readPieces sizes stream).2).1,
        (readPieces sizes' (readPieces sizes stream).2).2) := by
  induction sizes generalizing stream with
  | nil => simp [readPieces]
  | cons size sizes ih =>
    rw [List.cons_append, readPieces, readPieces]
    cases hread : fgets size stream with
    | none =>
      obtain rfl : stream = [] := by simpa [fgets] using hread
      simp [readPieces_nil]
    | some r => simp [ih]

/-- Lines can be read off the stream. -/
theorem joinLines_inj {lines lines' : List Bytes} (h : ∀ line ∈ lines, newline ∉ line)
    (h' : ∀ line ∈ lines', newline ∉ line) (heq : joinLines lines = joinLines lines') :
    lines = lines' := by
  induction lines generalizing lines' with
  | nil =>
    cases lines' with
    | nil => rfl
    | cons line lines' => simp [joinLines] at heq
  | cons line lines ih =>
    cases lines' with
    | nil => simp [joinLines] at heq
    | cons line' lines' =>
      rw [joinLines_cons, joinLines_cons] at heq
      have hbefore : ∀ l rest : Bytes, newline ∉ l →
          (l ++ newline :: rest).takeWhile (· != newline) = l := by
        intro l rest hl
        have hbytes : ∀ b ∈ l, (b != newline) = true :=
          fun b hb => bne_iff_ne.mpr fun e => hl (e ▸ hb)
        simp [List.takeWhile_append_of_pos hbytes]
      have hline : line = line' := by
        rw [← hbefore line (joinLines lines) (h line List.mem_cons_self), heq]
        exact hbefore line' _ (h' line' List.mem_cons_self)
      rw [hline, List.append_cancel_left_eq, List.cons.injEq] at heq
      rw [hline, ih (fun l hl => h l (List.mem_cons_of_mem _ hl))
        (fun l hl => h' l (List.mem_cons_of_mem _ hl)) heq.2]

/-- A call with room for a byte reads one, unless the stream has ended. -/
theorem readPieces_ne_nil {sizes : List ℕ} (hsizes : ∀ size ∈ sizes, 2 ≤ size) (stream : Bytes) :
    ∀ piece ∈ (readPieces sizes stream).1, piece ≠ [] := by
  induction sizes generalizing stream with
  | nil => simp [readPieces]
  | cons size sizes ih =>
    have hrest := ih fun size h => hsizes size (List.mem_cons_of_mem _ h)
    obtain ⟨n, rfl⟩ : ∃ n, size = n + 2 := Nat.exists_eq_add_of_le' (hsizes _ List.mem_cons_self)
    cases stream with
    | nil => simp [readPieces, fgets]
    | cons b stream =>
      have hread : fgets (n + 2) (b :: stream) = some (readLine (n + 1) (b :: stream)) := rfl
      rw [readPieces, hread, List.forall_mem_cons]
      refine ⟨?_, hrest _⟩
      rw [readLine]
      split <;> simp

/-- The string in a piece is empty when the piece starts with a NUL. -/
theorem cString_length_eq_zero_iff {piece : Bytes} (h : piece ≠ []) :
    (cString piece).length = 0 ↔ piece.head? = some 0 := by
  cases piece with
  | nil => exact absurd rfl h
  | cons b piece =>
    by_cases hb : b = 0
    · simp [CString.length, cString, hb]
    · simp [CString.length, cString, hb]

/-! ## One call -/

section Step

variable {size : ℕ} {sizes : List ℕ} {line : Bytes} {lines : List Bytes} {stream : Bytes}

theorem entered_line (hnul : (0 : UInt8) ∉ line) :
    (entered (line ++ [newline])).bytes = line := by
  have h := stripNewline_append ⟨line, hnul⟩
  exact congrArg CString.bytes h

theorem entered_part (hnul : (0 : UInt8) ∉ line) (hnewline : newline ∉ line) :
    (entered line).bytes = line := by
  have hbytes : (cString line).bytes = line := cString_of_noNul hnul
  rw [entered, stripNewline_of_not_mem (by rwa [hbytes]), hbytes]

theorem inStep_cons {piece rest : Bytes} (h : fgets size stream = some (piece, rest)) :
    InStep (size :: sizes) (line :: lines) stream ↔
      (entered piece).bytes = line.take size ∧ InStep sizes lines rest := by
  simp [InStep, readPieces, h]

theorem fgets_of_fits (hnewline : newline ∉ line) (h : line.length + 1 < size) (rest : Bytes) :
    fgets size (line ++ newline :: rest) = some (line ++ [newline], rest) := by
  have hread := readLine_of_lt hnewline (show line.length < size - 1 by omega) rest
  rw [fgets, if_neg (by simp), hread]

theorem fgets_of_cut (hnewline : newline ∉ line) (h : size ≤ line.length + 1) (rest : Bytes) :
    fgets size (line ++ newline :: rest) =
      some (line.take (size - 1), line.drop (size - 1) ++ newline :: rest) := by
  have hread := readLine_of_le hnewline (show size - 1 ≤ line.length by omega) (newline :: rest)
  rw [fgets, if_neg (by simp), hread]

end Step

/-! ## All calls -/

/-- One line behind, the calls find their lines only where all of these are empty. -/
theorem inStep_behind_iff {sizes : List ℕ} (hsizes : ∀ size ∈ sizes, 2 ≤ size)
    (lines : List Bytes) :
    InStep sizes lines (newline :: joinLines lines) ↔ ∀ l ∈ lines.take sizes.length, l = [] := by
  induction sizes generalizing lines with
  | nil => simp [InStep, readPieces]
  | cons size sizes ih =>
    have hsize : 2 ≤ size := hsizes size List.mem_cons_self
    cases lines with
    | nil => simp [InStep]
    | cons line lines =>
      have hnone : newline ∉ ([] : Bytes) := by simp
      have hread : fgets size (newline :: joinLines (line :: lines)) =
          some ([] ++ [newline], joinLines (line :: lines)) := fgets_of_fits hnone hsize _
      have hempty : line.take size = [] ↔ line = [] := by
        rw [List.take_eq_nil_iff]
        exact ⟨fun h => h.resolve_left (by omega), Or.inr⟩
      rw [inStep_cons hread, entered_line (by simp), eq_comm, hempty, List.length_cons,
        List.take_succ_cons, List.forall_mem_cons]
      refine and_congr_right fun hline => ?_
      rw [hline, joinLines_cons, List.nil_append]
      exact ih (fun size h => hsizes size (List.mem_cons_of_mem _ h)) lines

/-- The calls keep step with the lines exactly when the lines fit. -/
theorem inStep_iff {sizes : List ℕ} (hsizes : ∀ size ∈ sizes, 2 ≤ size) {lines : List Bytes}
    (hlines : ∀ line ∈ lines, newline ∉ line ∧ (0 : UInt8) ∉ line) :
    InStep sizes lines (joinLines lines) ↔ LinesFit sizes lines := by
  induction sizes generalizing lines with
  | nil => simp [InStep, readPieces, LinesFit]
  | cons size sizes ih =>
    have hrest : ∀ size ∈ sizes, 2 ≤ size := fun size h => hsizes size (List.mem_cons_of_mem _ h)
    cases lines with
    | nil => simp [InStep, LinesFit]
    | cons line lines =>
      obtain ⟨hnewline, hnul⟩ := hlines line List.mem_cons_self
      rw [joinLines_cons, LinesFit]
      rcases Nat.lt_trichotomy (line.length + 1) size with hlt | heq | hgt
      · rw [inStep_cons (fgets_of_fits hnewline hlt _), entered_line hnul,
          List.take_of_length_le (by omega), ih hrest fun l h => hlines l (List.mem_cons_of_mem _ h)]
        simp [hlt, hlt.ne]
      · have hcut := fgets_of_cut hnewline heq.ge (joinLines lines)
        rw [List.take_of_length_le (by omega), List.drop_of_length_le (by omega),
          List.nil_append] at hcut
        rw [inStep_cons hcut, entered_part hnul hnewline, List.take_of_length_le (by omega),
          inStep_behind_iff hrest]
        simp [heq]
      · rw [inStep_cons (fgets_of_cut hnewline hgt.le _),
          entered_part (noNul_take hnul _) fun h => hnewline (List.mem_of_mem_take h)]
        refine iff_of_false (fun h => ?_) (by omega)
        have hlength := congrArg List.length h.1
        simp only [List.length_take] at hlength
        have hsize : 2 ≤ size := hsizes size List.mem_cons_self
        omega

/-- Lines that are never asked for do not matter, nor do calls behind the last line. -/
theorem linesFit_take (sizes : List ℕ) (lines : List Bytes) :
    LinesFit (sizes.take lines.length) lines ↔ LinesFit sizes lines := by
  induction sizes generalizing lines with
  | nil => simp
  | cons size sizes ih =>
    cases lines with
    | nil => simp [LinesFit]
    | cons line lines =>
      have htake : lines.take (sizes.take lines.length).length = lines.take sizes.length := by
        rw [List.length_take, List.take_eq_take_iff]
        omega
      rw [List.length_cons, List.take_succ_cons, LinesFit, LinesFit, ih, htake]

end CLibrary
