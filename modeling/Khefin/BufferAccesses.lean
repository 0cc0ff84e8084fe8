import Khefin.CStandardLibrary
import Khefin.ExitingPrograms

/-! # Accesses to buffers

A pointer is NULL or owns a buffer. A program over buffers lists the accesses it makes, each
with the memory it is made to. It is compared with a program over the values in that memory:
as long as every access is safe, the one ends as the other does. -/

namespace BufferAccesses
open CLibrary ExitingPrograms

variable {ε α β γ δ : Type}

/-- NULL, or the memory of an allocated buffer. -/
abbrev Pointer := Option Bytes

inductive Access
  | string (p : Pointer)
  | extent (p : Pointer) (size : ℕ)
  deriving DecidableEq

/-- A string ends within its buffer, and an extent is within its own. NULL is no string and
has no extent. -/
def Access.IsSafe : Access → Prop
  | .string none => False
  | .string (some memory) => 0 ∈ memory
  | .extent none size => size = 0
  | .extent (some memory) size => size ≤ memory.length

abbrev AccessProgram (ε : Type) := EStateM ε (List Access)

def access (a : Access) : AccessProgram ε Unit := modify (· ++ [a])

/-- All accesses of a run, also of one that stops. -/
def accesses (x : AccessProgram ε α) : List Access := finalState (x [])

/-! ## Functions of the C library -/

/-- The buffer of a string. -/
def stringBuffer (s : CString) : Pointer := some (s.bytes ++ [0])

/-- The buffer of as many bytes, where none are kept as NULL. -/
def dataBuffer (data : Bytes) : Pointer := if data = [] then none else some data

/-- The string a pointer points to; `fault` ends the program at NULL. -/
def stringAt (fault : ε) (p : Pointer) : AccessProgram ε CString := do
  access (.string p)
  match p with
  | none => throw fault
  | some memory => return cString memory

def memcpy (destination source : Pointer) (size : ℕ) : AccessProgram ε Pointer := do
  access (.extent destination size)
  access (.extent source size)
  return destination.map fun memory => (source.getD []).take size ++ memory.drop size

/-- The source is read up to its terminator. -/
def strncpyTo (destination source : Pointer) (size : ℕ) : AccessProgram ε Pointer := do
  access (.extent destination size)
  access (.extent source (min size ((cString (source.getD [])).length + 1)))
  return destination.map fun memory => strncpy memory (cString (source.getD [])) size

def storeAt (fault : ε) (p : Pointer) (index : ℕ) (b : UInt8) : AccessProgram ε Pointer := do
  access (.extent p (index + 1))
  match p with
  | none => throw fault
  | some memory => return some (memory.set index b)

/-! ## Safe runs -/

/-- Only safe accesses are added. -/
def Safely (s s' : List Access) : Prop := ∃ added, s' = s ++ added ∧ ∀ a ∈ added, a.IsSafe

instance : IsPreorder (List Access) Safely where
  refl s := ⟨[], by simp, by simp⟩
  trans := by
    rintro s s' s'' ⟨added, rfl, hsafe⟩ ⟨added', rfl, hsafe'⟩
    refine ⟨added ++ added', by rw [List.append_assoc], fun a ha => ?_⟩
    exact (List.mem_append.mp ha).elim (hsafe a) (hsafe' a)

theorem safely_snoc {a : Access} (ha : a.IsSafe) (s : List Access) : Safely s (s ++ [a]) :=
  ⟨[a], rfl, by simpa using ha⟩

theorem safe_of_safely {s : List Access} (h : Safely [] s) : ∀ a ∈ s, a.IsSafe := by
  obtain ⟨added, rfl, hsafe⟩ := h
  exact hsafe

/-- The run ends in `s'` as `y` does, with a value related to that of `y`. -/
def EndsAs (R : α → β → Prop) (s' : List Access) (run : EStateM.Result ε (List Access) α) :
    Except ε β → Prop
  | .ok b => ∃ a, run = .ok a s' ∧ R a b
  | .error e => run = .error e s'

/-- Every access of `x` is safe, and `x` ends as `y` does. -/
def SafelyFollows (R : α → β → Prop) (x : AccessProgram ε α) (y : Except ε β) : Prop :=
  ∀ s, ∃ s', Safely s s' ∧ EndsAs R s' (x s) y

variable {R : α → β → Prop} {R' : γ → δ → Prop} {x : AccessProgram ε α} {y : Except ε β}

theorem follows_pure {a : α} {b : β} (h : R a b) :
    SafelyFollows R (pure a : AccessProgram ε α) (.ok b) :=
  fun s => ⟨s, refl_of Safely s, a, rfl, h⟩

theorem follows_lift (y : Except ε β) : SafelyFollows Eq (lift y : AccessProgram ε β) y := by
  intro s
  refine ⟨s, refl_of Safely s, ?_⟩
  cases y with
  | ok b => exact ⟨b, rfl, rfl⟩
  | error e => exact rfl

/-- A stop, whatever would have been returned. -/
theorem follows_stop (e : ε) : SafelyFollows R (lift (.error e) : AccessProgram ε α) (.error e) :=
  fun s => ⟨s, refl_of Safely s, rfl⟩

theorem SafelyFollows.mono {R₁ : α → β → Prop} (h : SafelyFollows R x y)
    (hR : ∀ a b, R a b → R₁ a b) : SafelyFollows R₁ x y := by
  intro s
  obtain ⟨s', hsafe, hends⟩ := h s
  cases y with
  | ok b =>
    obtain ⟨a, hrun, hab⟩ := hends
    exact ⟨s', hsafe, a, hrun, hR a b hab⟩
  | error e => exact ⟨s', hsafe, hends⟩

theorem follows_bind {f : α → AccessProgram ε γ} {g : β → Except ε δ} (hx : SafelyFollows R x y)
    (hf : ∀ a b, R a b → SafelyFollows R' (f a) (g b)) : SafelyFollows R' (x >>= f) (y >>= g) := by
  intro s
  obtain ⟨s₁, hsafe, hends⟩ := hx s
  cases y with
  | ok b =>
    obtain ⟨a, hrun, hab⟩ := hends
    obtain ⟨s₂, hsafe', hends'⟩ := hf a b hab s₁
    exact ⟨s₂, trans_of Safely hsafe hsafe', by rwa [bind_of_ok hrun]⟩
  | error e => exact ⟨s₁, hsafe, bind_of_error hends f⟩

/-- What is only done to the buffers behind the last step that can stop. -/
theorem follows_then {f : α → AccessProgram ε γ} {R' : γ → β → Prop} (hx : SafelyFollows R x y)
    (hf : ∀ a b, R a b → SafelyFollows R' (f a) (.ok b)) : SafelyFollows R' (x >>= f) y := by
  have hrest := follows_bind (g := Except.ok) hx hf
  rwa [show y >>= Except.ok = y from bind_pure y] at hrest

/-- A safe access in front of the rest. -/
theorem follows_access {a : Access} (ha : a.IsSafe) {f : Unit → AccessProgram ε γ}
    {z : Except ε δ} (hf : SafelyFollows R' (f ()) z) : SafelyFollows R' (access a >>= f) z := by
  intro s
  obtain ⟨s', hsafe, hends⟩ := hf (s ++ [a])
  exact ⟨s', trans_of Safely (safely_snoc ha s) hsafe, hends⟩

/-- A step that returns one value whatever it is run on, with safe accesses. -/
theorem follows_step {f : α → AccessProgram ε γ} {z : Except ε δ} {a : α}
    (hx : SafelyFollows (fun a' _ => a' = a) x (.ok ())) (hf : SafelyFollows R' (f a) z) :
    SafelyFollows R' (x >>= f) z := by
  intro s
  obtain ⟨s₁, hsafe, a', hrun, rfl⟩ := hx s
  obtain ⟨s₂, hsafe', hends⟩ := hf s₁
  exact ⟨s₂, trans_of Safely hsafe hsafe', by rwa [bind_of_ok hrun]⟩

/-! ## Safe calls -/

variable {destination source : Pointer} {memory data : Bytes} {size : ℕ} {fault : ε}

theorem follows_stringAt (h : 0 ∈ memory) (fault : ε) :
    SafelyFollows (fun s _ => s = cString memory) (stringAt fault (some memory)) (.ok ()) :=
  follows_access (a := .string (some memory)) h (follows_pure rfl)

theorem follows_memcpy (hdestination : (Access.extent destination size).IsSafe)
    (hsource : (Access.extent source size).IsSafe) :
    SafelyFollows (fun p _ => p = destination.map fun memory =>
      (source.getD []).take size ++ memory.drop size)
      (memcpy destination source size : AccessProgram ε Pointer) (.ok ()) :=
  follows_access hdestination (follows_access hsource (follows_pure rfl))

theorem follows_strncpyTo (hdestination : (Access.extent destination size).IsSafe)
    (hsource : (Access.extent source (min size ((cString (source.getD [])).length + 1))).IsSafe) :
    SafelyFollows (fun p _ => p = destination.map fun memory =>
      strncpy memory (cString (source.getD [])) size)
      (strncpyTo destination source size : AccessProgram ε Pointer) (.ok ()) :=
  follows_access hdestination (follows_access hsource (follows_pure rfl))

theorem follows_storeAt {index : ℕ} (h : index < memory.length) (fault : ε) (b : UInt8) :
    SafelyFollows (fun p _ => p = some (memory.set index b))
      (storeAt fault (some memory) index b) (.ok ()) :=
  follows_access (a := .extent (some memory) (index + 1)) h (follows_pure rfl)

/-- A copy with its terminator behind it holds the string, whatever stands in the source. -/
theorem cString_terminated (data : Bytes) :
    cString ((strncpy (List.replicate (data.length + 1) 0) (cString data) data.length).set
      data.length 0) = cString data := by
  have hle := cString_length_le data
  have hdrop : (List.replicate (data.length + 1) (0 : UInt8)).drop data.length = [0] := by
    simp
  have hlength : (((cString data).bytes ++ List.replicate data.length (0 : UInt8)).take
      data.length).length = data.length := by
    simp
  rw [strncpy, hdrop, List.set_append_right _ _ (by omega), hlength, Nat.sub_self]
  rw [CString.length] at hle
  apply CString.ext
  rw [List.take_append, List.take_of_length_le hle, List.take_replicate, List.append_assoc,
    List.set_cons_zero, ← List.replicate_succ', List.replicate_succ,
    cString_append_nul (cString data).noNul]

theorem zero_mem_set {index : ℕ} (h : index < memory.length) : 0 ∈ memory.set index 0 := by
  rw [List.mem_iff_getElem]
  exact ⟨index, by simpa using h, by simp⟩

end BufferAccesses
