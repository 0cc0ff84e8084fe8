import Mathlib.Data.List.TakeWhile
import Mathlib.Data.Nat.Notation

/-! # The parts of the C library a program meets: strings in memory and buffered streams

A region of memory is a list of bytes. A C string is what stands before the
first NUL of a region, so it never holds one itself. -/

namespace CLibrary

abbrev Bytes := List UInt8

def newline : UInt8 := 0x0a

structure CString where
  bytes : Bytes
  noNul : (0 : UInt8) ∉ bytes
  deriving DecidableEq

@[ext] theorem CString.ext {s t : CString} (h : s.bytes = t.bytes) : s = t := by
  cases s; cases t; cases h; rfl

/-- `strlen`. -/
def CString.length (s : CString) : ℕ := s.bytes.length

/-- The C string that starts a region of memory. -/
def cString (memory : Bytes) : CString where
  bytes := memory.takeWhile (· != 0)
  noNul h := by simpa using List.mem_takeWhile_imp h

/-- A string literal of the source. -/
def literal (s : String) : CString := cString (s.toList.map fun c => UInt8.ofNat c.toNat)

instance : Append CString where
  append s t := ⟨s.bytes ++ t.bytes, fun h => (List.mem_append.mp h).elim s.noNul t.noNul⟩

/-- Drop a trailing newline. -/
def stripNewline (s : CString) : CString :=
  if s.bytes.getLast? = some newline then
    ⟨s.bytes.dropLast, fun h => s.noNul (List.dropLast_subset _ h)⟩
  else s

def strndup (memory : Bytes) (n : ℕ) : CString := cString (memory.take n)

/-- `strncpy` pads with NULs, and writes none when the source has `n` bytes or more. -/
def strncpy (destination : Bytes) (source : CString) (n : ℕ) : Bytes :=
  (source.bytes ++ List.replicate n 0).take n ++ destination.drop n

/-- At most `n` bytes of a stream, up to and including the first newline, and what is left. -/
def readLine : ℕ → Bytes → Bytes × Bytes
  | 0, stream => ([], stream)
  | _ + 1, [] => ([], [])
  | n + 1, b :: stream =>
    if b = newline then ([b], stream) else (b :: (readLine n stream).1, (readLine n stream).2)

/-- The bytes `fgets` puts before its NUL and the rest of the stream; `none` at its end. -/
def fgets (size : ℕ) (stream : Bytes) : Option (Bytes × Bytes) :=
  if stream = [] then none else some (readLine (size - 1) stream)

/-! ## Strings -/

theorem cString_bytes (memory : Bytes) : (cString memory).bytes = memory.takeWhile (· != 0) := rfl

theorem takeWhile_noNul {d : Bytes} (h : (0 : UInt8) ∉ d) (r : Bytes) :
    (d ++ r).takeWhile (· != 0) = d ++ r.takeWhile (· != 0) :=
  List.takeWhile_append_of_pos fun b hb => by
    have : b ≠ 0 := fun e => h (e ▸ hb)
    simpa using this

theorem cString_of_noNul {d : Bytes} (h : (0 : UInt8) ∉ d) : (cString d).bytes = d := by
  simpa [cString] using takeWhile_noNul h []

@[simp] theorem cString_self (s : CString) : cString s.bytes = s :=
  CString.ext (cString_of_noNul s.noNul)

/-- Memory behind a terminator is never looked at. -/
theorem cString_append_nul {d : Bytes} (h : (0 : UInt8) ∉ d) (r : Bytes) :
    (cString (d ++ 0 :: r)).bytes = d := by
  simp [cString, takeWhile_noNul h]

theorem noNul_take {d : Bytes} (h : (0 : UInt8) ∉ d) (n : ℕ) : (0 : UInt8) ∉ d.take n :=
  fun hm => h (List.mem_of_mem_take hm)

theorem strndup_bytes {d : Bytes} (h : (0 : UInt8) ∉ d) (n : ℕ) :
    (strndup d n).bytes = d.take n := cString_of_noNul (noNul_take h n)

theorem stripNewline_append (s : CString) : stripNewline (cString (s.bytes ++ [newline])) = s := by
  have hn : (0 : UInt8) ∉ s.bytes ++ [newline] := by
    simpa using ⟨s.noNul, (by decide : (0 : UInt8) ≠ newline)⟩
  have hb := cString_of_noNul hn
  apply CString.ext
  simp [stripNewline, hb]

theorem stripNewline_of_not_mem {s : CString} (h : newline ∉ s.bytes) : stripNewline s = s :=
  if_neg fun hl => h (List.mem_of_getLast? hl)

theorem cString_length_le (memory : Bytes) : (cString memory).length ≤ memory.length :=
  (List.takeWhile_sublist _).length_le

theorem strndup_length_le (memory : Bytes) (n : ℕ) : (strndup memory n).length ≤ n := by
  have hcut : (strndup memory n).length ≤ (memory.take n).length := cString_length_le _
  rw [List.length_take] at hcut
  omega

theorem stripNewline_length_le (s : CString) : (stripNewline s).length ≤ s.length := by
  unfold stripNewline
  split
  · simp [CString.length]
  · exact Nat.le_refl _

/-- A copy that leaves room for a terminator reads back as its source. -/
theorem cString_strncpy_of_lt {s : CString} {n : ℕ} (h : s.length < n) (destination : Bytes) :
    cString (strncpy destination s n) = s := by
  obtain ⟨k, hk⟩ : ∃ k, n - s.bytes.length = k + 1 := ⟨n - s.bytes.length - 1, by
    simp only [CString.length] at h; omega⟩
  have hs : s.bytes.take n = s.bytes := List.take_of_length_le (by simpa [CString.length] using h.le)
  have hp : (List.replicate n (0 : UInt8)).take (k + 1) = 0 :: List.replicate k 0 := by
    rw [List.take_replicate, Nat.min_eq_left (by omega), List.replicate_succ]
  apply CString.ext
  rw [strncpy, List.take_append, hs, hk, hp, List.append_assoc, List.cons_append,
    cString_append_nul s.noNul]

/-- A copy that fills its `n` bytes runs on into whatever the destination held behind them. -/
theorem cString_strncpy_of_length_eq {s : CString} {n : ℕ} (h : s.length = n)
    (destination : Bytes) :
    (cString (strncpy destination s n)).bytes =
      s.bytes ++ (destination.drop n).takeWhile (· != 0) := by
  have hs : (s.bytes ++ List.replicate n (0 : UInt8)).take n = s.bytes := by
    rw [List.take_append_of_le_length (by simp only [CString.length] at h; omega)]
    exact List.take_of_length_le (by simp only [CString.length] at h; omega)
  rw [strncpy, hs, cString_bytes, takeWhile_noNul s.noNul]

/-! ## Reading lines -/

theorem readLine_length_le (n : ℕ) (stream : Bytes) : (readLine n stream).1.length ≤ n := by
  induction n generalizing stream with
  | zero => simp [readLine]
  | succ n ih =>
    cases stream with
    | nil => simp [readLine]
    | cons b stream =>
      by_cases hb : b = newline
      · simp [readLine, hb]
      · simpa [readLine, hb] using ih stream

/-- `fgets` leaves room for the terminator. -/
theorem fgets_length_le {size : ℕ} {stream line rest : Bytes}
    (h : fgets size stream = some (line, rest)) : line.length ≤ size - 1 := by
  unfold fgets at h
  split at h
  · simp at h
  · have hline : line = (readLine (size - 1) stream).1 := by rw [Option.some.inj h]
    exact hline ▸ readLine_length_le (size - 1) stream

/-- A line that fits is read whole, with its newline. -/
theorem readLine_of_lt {line : Bytes} (h : newline ∉ line) {n : ℕ} (hn : line.length < n)
    (rest : Bytes) : readLine n (line ++ newline :: rest) = (line ++ [newline], rest) := by
  induction line generalizing n with
  | nil =>
    obtain ⟨n, rfl⟩ := Nat.exists_eq_succ_of_ne_zero (show n ≠ 0 by omega)
    simp [readLine]
  | cons b line ih =>
    obtain ⟨n, rfl⟩ := Nat.exists_eq_succ_of_ne_zero (show n ≠ 0 by omega)
    have hb : b ≠ newline := fun e => h (e ▸ List.mem_cons_self)
    have ht := ih (fun hm => h (List.mem_cons_of_mem _ hm)) (n := n) (by simpa using hn)
    simp [readLine, hb, ht]

/-- A line that does not fit is cut, and its tail stays in the stream. -/
theorem readLine_of_le {line : Bytes} (h : newline ∉ line) {n : ℕ} (hn : n ≤ line.length)
    (rest : Bytes) : readLine n (line ++ rest) = (line.take n, line.drop n ++ rest) := by
  induction line generalizing n with
  | nil =>
    obtain rfl : n = 0 := by simpa using hn
    simp [readLine]
  | cons b line ih =>
    cases n with
    | zero => simp [readLine]
    | succ n =>
      have hb : b ≠ newline := fun e => h (e ▸ List.mem_cons_self)
      have ht := ih (fun hm => h (List.mem_cons_of_mem _ hm)) (n := n) (by simpa using hn)
      simp [readLine, hb, ht]

/-! ## Streams opened for writing -/

/-- What has reached the file and what still waits in the buffer. -/
structure Stream where
  stored : Bytes
  buffered : Bytes
  deriving DecidableEq, Repr

namespace Stream

/-- `fopen` with mode `"w"` has emptied the file. -/
def opened : Stream := ⟨[], []⟩

/-- `fwrite` accepts the first `accepted` bytes, and the stream then passes the
first `flushed` bytes of its buffer on to the file. -/
def write (s : Stream) (data : Bytes) (accepted flushed : ℕ) : Stream :=
  ⟨s.stored ++ (s.buffered ++ data.take accepted).take flushed,
    (s.buffered ++ data.take accepted).drop flushed⟩

/-- `fclose` passes on the first `flushed` bytes of the buffer and drops the others. -/
def close (s : Stream) (flushed : ℕ) : Bytes := s.stored ++ s.buffered.take flushed

theorem write_contents (s : Stream) (data : Bytes) (accepted flushed : ℕ) :
    (s.write data accepted flushed).stored ++ (s.write data accepted flushed).buffered =
      s.stored ++ s.buffered ++ data.take accepted := by
  simp [write, List.append_assoc]

/-- Closing stores everything accepted so far exactly when its flush is complete. -/
theorem close_eq_contents_iff (s : Stream) (flushed : ℕ) :
    s.close flushed = s.stored ++ s.buffered ↔ s.buffered.length ≤ flushed := by
  simp only [close, List.append_cancel_left_eq]
  exact ⟨fun h => by have := congrArg List.length h; simp at this; omega, List.take_of_length_le⟩

end Stream

end CLibrary
