import Khefin.Platform

/-! # The state of a run, its trace, and allocation

The trace lists the calls that later statements about a run look at, in the order made. -/

namespace Khefin
open CLibrary ExitingPrograms

inductive Event
  | cryptoPwhash (salt : Bytes)
  | cryptoSecretboxOpenEasy (nonce : Bytes) (ciphertextSize : ℕ)
  | fidoDevOpen (slot : ℕ)
  | fidoDevClose (slot : ℕ)
  | fidoDevMakeCred (slot : ℕ) (request : CredentialRequest)
  | fidoDevGetAssert (slot : ℕ) (request : AssertionRequest)
  | promptForSecret (description : CString)
  | secretEntered (secret : CString)
  | outOfBounds (operation : String)
  | diagnostic (message : Message)
  deriving DecidableEq

/-- Files by path, the unread part of standard input, and what has been printed. -/
structure World where
  files : CString → Option Bytes
  stdin : Bytes
  stdout : Bytes
  trace : List Event

abbrev Program := EStateM Halt World

namespace World

def record (e : Event) (w : World) : World := { w with trace := w.trace ++ [e] }

def printf (output : Bytes) (w : World) : World := { w with stdout := w.stdout ++ output }

def store (path : CString) (content : Bytes) (w : World) : World :=
  { w with files := fun p => if p = path then some content else w.files p }

def leave (stdin : Bytes) (w : World) : World := { w with stdin := stdin }

variable (w : World) (e : Event) (b : Bytes) (p : CString)

@[simp] theorem record_files : (w.record e).files = w.files := rfl
@[simp] theorem record_stdin : (w.record e).stdin = w.stdin := rfl
@[simp] theorem record_stdout : (w.record e).stdout = w.stdout := rfl
@[simp] theorem record_trace : (w.record e).trace = w.trace ++ [e] := rfl
@[simp] theorem printf_files : (w.printf b).files = w.files := rfl
@[simp] theorem printf_stdin : (w.printf b).stdin = w.stdin := rfl
@[simp] theorem printf_stdout : (w.printf b).stdout = w.stdout ++ b := rfl
@[simp] theorem printf_trace : (w.printf b).trace = w.trace := rfl
@[simp] theorem leave_files : (w.leave b).files = w.files := rfl
@[simp] theorem leave_stdin : (w.leave b).stdin = b := rfl
@[simp] theorem leave_stdout : (w.leave b).stdout = w.stdout := rfl
@[simp] theorem leave_trace : (w.leave b).trace = w.trace := rfl
@[simp] theorem store_files_self : (w.store p b).files p = some b := by simp [store]
@[simp] theorem store_stdin : (w.store p b).stdin = w.stdin := rfl
@[simp] theorem store_stdout : (w.store p b).stdout = w.stdout := rfl
@[simp] theorem store_trace : (w.store p b).trace = w.trace := rfl

end World

def record (e : Event) : Program Unit := modify (World.record e)

@[simp] theorem record_apply (e : Event) (w : World) : record e w = .ok () (w.record e) := rfl

/-! ## Steps that only add to the trace -/

/-- Every new event is of the kind `S`. -/
def Traces (S : Event → Prop) (w w' : World) : Prop :=
  ∃ events, w'.trace = w.trace ++ events ∧ ∀ e ∈ events, S e

/-- Files and output stay as they are as well. -/
def Silently (S : Event → Prop) (w w' : World) : Prop :=
  w'.files = w.files ∧ w'.stdout = w.stdout ∧ Traces S w w'

variable {S T : Event → Prop}

instance : IsPreorder World (Traces S) where
  refl w := ⟨[], by simp, by simp⟩
  trans := by
    rintro w₁ w₂ w₃ ⟨es, ht, he⟩ ⟨es', ht', he'⟩
    refine ⟨es ++ es', by rw [ht', ht, List.append_assoc], fun e h => ?_⟩
    exact (List.mem_append.mp h).elim (he e) (he' e)

instance : IsPreorder World (Silently S) where
  refl w := ⟨rfl, rfl, refl_of (Traces S) w⟩
  trans := by
    rintro w₁ w₂ w₃ ⟨hf, hs, ht⟩ ⟨hf', hs', ht'⟩
    exact ⟨hf'.trans hf, hs'.trans hs, trans_of (Traces S) ht ht'⟩

theorem Traces.mono {w w' : World} (h : Traces S w w') (hST : ∀ e, S e → T e) : Traces T w w' := by
  obtain ⟨events, ht, he⟩ := h
  exact ⟨events, ht, fun e h => hST e (he e h)⟩

theorem Silently.mono {w w' : World} (h : Silently S w w') (hST : ∀ e, S e → T e) :
    Silently T w w' := ⟨h.1, h.2.1, h.2.2.mono hST⟩

theorem traces_record {e : Event} (h : S e) : Keeps (Traces S) (record e) :=
  keeps_modify fun _ => ⟨[e], rfl, by simpa using h⟩

theorem traces_printf (output : Bytes) :
    Keeps (Traces S) (modify (World.printf output) : Program Unit) :=
  keeps_modify fun _ => ⟨[], by simp, by simp⟩

theorem silently_record {e : Event} (h : S e) : Keeps (Silently S) (record e) :=
  keeps_modify fun _ => ⟨rfl, rfl, [e], rfl, by simpa using h⟩

theorem silently_leave (rest : Bytes) :
    Keeps (Silently S) (modify (World.leave rest) : Program Unit) :=
  keeps_modify fun _ => ⟨rfl, rfl, [], by simp, by simp⟩

/-- No authenticator is asked for an assertion. -/
def Event.IsQuiet : Event → Prop
  | .fidoDevGetAssert _ _ => False
  | _ => True

/-- Neither is anything derived or decrypted. -/
def Event.IsIdle : Event → Prop
  | .fidoDevGetAssert _ _ => False
  | .cryptoPwhash _ => False
  | .cryptoSecretboxOpenEasy _ _ => False
  | _ => True

abbrev Quietly : World → World → Prop := Silently Event.IsQuiet

abbrev Idly : World → World → Prop := Silently Event.IsIdle

theorem Event.IsIdle.isQuiet {e : Event} (h : e.IsIdle) : e.IsQuiet := by
  cases e <;> trivial

theorem quietly_of_idly {α : Type} {x : Program α} (h : Keeps Idly x) : Keeps Quietly x :=
  h.mono fun _ _ hw => hw.mono fun _ => Event.IsIdle.isQuiet

/-! ## Relations that a recorded event does not break -/

def Tolerates (S : Event → Prop) (R : World → World → Prop) : Prop :=
  ∀ w e, S e → R w (w.record e)

/-- Opening and closing a device, and a report. -/
def Event.IsRoutine : Event → Prop
  | .fidoDevOpen _ | .fidoDevClose _ | .diagnostic _ => True
  | _ => False

/-- Asking for a secret. -/
def Event.IsPrompt : Event → Prop
  | .promptForSecret _ | .secretEntered _ | .outOfBounds _ => True
  | _ => False

/-- Deriving a key, and opening a box with it. -/
def Event.IsKeyWork : Event → Prop
  | .cryptoPwhash _ | .cryptoSecretboxOpenEasy _ _ => True
  | _ => False

theorem keeps_record {R : World → World → Prop} (h : Tolerates S R) {e : Event} (he : S e) :
    Keeps R (record e) := keeps_modify fun w => h w e he

theorem tolerates_traces (h : ∀ e, S e → T e) : Tolerates S (Traces T) :=
  fun w e he => traces_record (h e he) w

theorem tolerates_silently (h : ∀ e, S e → T e) : Tolerates S (Silently T) :=
  fun w e he => silently_record (h e he) w

theorem tolerates_idly : Tolerates Event.IsRoutine Idly :=
  tolerates_silently fun e he => by cases e <;> trivial

theorem tolerates_quietly : Tolerates Event.IsKeyWork Quietly :=
  tolerates_silently fun e he => by cases e <;> trivial

/-! ## Allocation -/

def mallocOrExit (P : Platform) (n : ℕ) (what : String) : Except Halt Unit :=
  stopIf (P.malloc n = false)
    (.exit .outOfMemory ⟨"Unable to allocate memory for %s", [.text what]⟩)

/-- A buffer that is only allocated when there is something to put into it. -/
def mallocUnlessEmpty (P : Platform) (n : ℕ) (what : String) : Except Halt Unit :=
  if n = 0 then .ok () else mallocOrExit P n what

def strdupOrExit (P : Platform) (str : CString) (what : String) : Except Halt CString := do
  mallocOrExit P (str.length + 1) what
  return str

def strndupOrExit (P : Platform) (memory : Bytes) (n : ℕ) (what : String) :
    Except Halt CString := do
  mallocOrExit P ((strndup memory n).length + 1) what
  return strndup memory n

/-- Memory is not short: every allocation of up to `bound` bytes succeeds. -/
def Platform.Allocates (P : Platform) (bound : ℕ) : Prop := ∀ n ≤ bound, P.malloc n = true

theorem Platform.Allocates.mono {P : Platform} {m n : ℕ} (h : P.Allocates n) (hmn : m ≤ n) :
    P.Allocates m := fun k hk => h k (hk.trans hmn)

theorem mallocOrExit_eq_ok {P : Platform} {n : ℕ} {what : String} {u : Unit} :
    mallocOrExit P n what = .ok u ↔ P.malloc n = true := by simp [mallocOrExit]

theorem mallocOrExit_of {P : Platform} {n : ℕ} (h : P.malloc n = true) (what : String) :
    mallocOrExit P n what = .ok () := mallocOrExit_eq_ok.mpr h

theorem mallocUnlessEmpty_eq_ok {P : Platform} {n : ℕ} {what : String} {u : Unit} :
    mallocUnlessEmpty P n what = .ok u ↔ n = 0 ∨ P.malloc n = true := by
  unfold mallocUnlessEmpty
  split <;> simp_all [mallocOrExit_eq_ok]

theorem mallocUnlessEmpty_of {P : Platform} {n : ℕ} (h : P.malloc n = true) (what : String) :
    mallocUnlessEmpty P n what = .ok () := mallocUnlessEmpty_eq_ok.mpr (Or.inr h)

theorem strdupOrExit_eq_ok {P : Platform} {str s : CString} {what : String} :
    strdupOrExit P str what = .ok s ↔ P.malloc (str.length + 1) = true ∧ str = s := by
  simp [strdupOrExit, except_bind_eq_ok, mallocOrExit_eq_ok]

theorem strdupOrExit_of {P : Platform} {str : CString} (h : P.malloc (str.length + 1) = true)
    (what : String) : strdupOrExit P str what = .ok str := strdupOrExit_eq_ok.mpr ⟨h, rfl⟩

theorem strndupOrExit_eq_ok {P : Platform} {memory : Bytes} {n : ℕ} {what : String} {s : CString} :
    strndupOrExit P memory n what = .ok s ↔
      P.malloc ((strndup memory n).length + 1) = true ∧ strndup memory n = s := by
  simp [strndupOrExit, except_bind_eq_ok, mallocOrExit_eq_ok]

theorem strndupOrExit_of {P : Platform} {memory : Bytes} {n : ℕ}
    (h : P.malloc ((strndup memory n).length + 1) = true) (what : String) :
    strndupOrExit P memory n what = .ok (strndup memory n) := by
  simp [strndupOrExit, mallocOrExit_of h]

end Khefin
