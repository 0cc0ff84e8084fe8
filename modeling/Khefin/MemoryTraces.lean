import Khefin.Histories
import Mathlib.Data.Finset.Lattice.Lemmas
import Mathlib.Data.Finset.Range
import Mathlib.Data.Finset.SDiff

/-! # Traces of memory

Buffers are named by the pointers that own them. The trace of a run says when a buffer is
allocated, when bytes that are to be kept secret are put at its front, when its front is
set to zero, and when it is given up: freed, or lost as its pointer gets another value. -/

namespace MemoryTraces
open Histories

variable {β : Type}

inductive MemoryEvent (β : Type)
  | allocate (b : β) (size : ℕ)
  | write (b : β) (size : ℕ)
  | wipe (b : β) (size : ℕ)
  | free (b : β)
  | overwrite (b : β)
  deriving DecidableEq

def MemoryEvent.buffer : MemoryEvent β → β
  | .allocate b _ | .write b _ | .wipe b _ | .free b | .overwrite b => b

def MemoryEvent.GivesUp (b : β) : MemoryEvent β → Prop
  | .free b' | .overwrite b' => b' = b
  | _ => False

theorem buffer_of_givesUp {b : β} {e : MemoryEvent β} (h : e.GivesUp b) : e.buffer = b := by
  cases e with
  | free b' => exact h
  | overwrite b' => exact h
  | allocate b' m => exact h.elim
  | write b' m => exact h.elim
  | wipe b' m => exact h.elim

variable [DecidableEq β]

/-- The positions of a buffer that hold secret bytes behind one more event. -/
def expose (b : β) (bytes : Finset ℕ) : MemoryEvent β → Finset ℕ
  | .allocate b' _ => if b' = b then ∅ else bytes
  | .write b' size => if b' = b then bytes ∪ Finset.range size else bytes
  | .wipe b' size => if b' = b then bytes \ Finset.range size else bytes
  | _ => bytes

def exposed (b : β) (past : List (MemoryEvent β)) : Finset ℕ := past.foldl (expose b) ∅

/-- A buffer is given up with all its secret bytes wiped. -/
def WipedFirst (b : β) (past : List (MemoryEvent β)) (e : MemoryEvent β) : Prop :=
  e.GivesUp b → exposed b past = ∅

variable {b : β} {past events : List (MemoryEvent β)} {e : MemoryEvent β} {n : ℕ}

@[simp] theorem exposed_append (past events : List (MemoryEvent β)) :
    exposed b (past ++ events) = events.foldl (expose b) (exposed b past) := List.foldl_append

@[simp] theorem expose_allocate (bytes : Finset ℕ) : expose b bytes (.allocate b n) = ∅ :=
  if_pos rfl

@[simp] theorem expose_write (bytes : Finset ℕ) :
    expose b bytes (.write b n) = bytes ∪ Finset.range n := if_pos rfl

@[simp] theorem expose_wipe (bytes : Finset ℕ) :
    expose b bytes (.wipe b n) = bytes \ Finset.range n := if_pos rfl

@[simp] theorem expose_free (bytes : Finset ℕ) (b' : β) : expose b bytes (.free b') = bytes := rfl

@[simp] theorem expose_overwrite (bytes : Finset ℕ) (b' : β) :
    expose b bytes (.overwrite b') = bytes := rfl

@[simp] theorem wipedFirst_allocate {b' : β} : WipedFirst b past (.allocate b' n) := False.elim

@[simp] theorem wipedFirst_write {b' : β} : WipedFirst b past (.write b' n) := False.elim

@[simp] theorem wipedFirst_wipe {b' : β} : WipedFirst b past (.wipe b' n) := False.elim

@[simp] theorem wipedFirst_free : WipedFirst b past (.free b) ↔ exposed b past = ∅ :=
  forall_prop_of_true rfl

@[simp] theorem wipedFirst_overwrite : WipedFirst b past (.overwrite b) ↔ exposed b past = ∅ :=
  forall_prop_of_true rfl

theorem expose_of_ne (h : e.buffer ≠ b) (bytes : Finset ℕ) : expose b bytes e = bytes := by
  cases e with
  | allocate b' m => exact if_neg h
  | write b' m => exact if_neg h
  | wipe b' m => exact if_neg h
  | free b' => rfl
  | overwrite b' => rfl

/-- Nothing happens to a buffer that no event is about. -/
theorem exposed_of_forall_ne (h : ∀ e ∈ events, e.buffer ≠ b) :
    exposed b (past ++ events) = exposed b past := by
  rw [exposed_append]
  induction events generalizing past with
  | nil => rfl
  | cons e events ih =>
    rw [List.foldl_cons, expose_of_ne (h e List.mem_cons_self)]
    exact ih fun x hx => h x (List.mem_cons_of_mem e hx)

/-- The part of a trace that is about one buffer. -/
def about (b : β) (events : List (MemoryEvent β)) : List (MemoryEvent β) :=
  events.filter fun e => e.buffer = b

theorem about_cons_of_eq (h : e.buffer = b) (events : List (MemoryEvent β)) :
    about b (e :: events) = e :: about b events := List.filter_cons_of_pos (decide_eq_true h)

theorem about_cons_of_ne (h : e.buffer ≠ b) (events : List (MemoryEvent β)) :
    about b (e :: events) = about b events := List.filter_cons_of_neg (by simpa using h)

theorem about_append (xs ys : List (MemoryEvent β)) :
    about b (xs ++ ys) = about b xs ++ about b ys := List.filter_append xs ys

theorem about_eq_nil (h : ∀ e ∈ events, e.buffer ≠ b) : about b events = [] :=
  List.filter_eq_nil_iff.mpr fun e he => by simpa using h e he

theorem about_eq_self (h : ∀ e ∈ events, e.buffer = b) : about b events = events :=
  List.filter_eq_self.mpr fun e he => decide_eq_true (h e he)

theorem wipedFirst_about_of {past past' : List (MemoryEvent β)}
    (h : exposed b past = exposed b past') :
    AtEach (WipedFirst b) past events ↔ AtEach (WipedFirst b) past' (about b events) := by
  induction events generalizing past past' with
  | nil => exact Iff.rfl
  | cons e events ih =>
    by_cases hb : e.buffer = b
    · have hbehind : exposed b (past ++ [e]) = exposed b (past' ++ [e]) := by
        rw [exposed_append, exposed_append, h]
      rw [about_cons_of_eq hb, AtEach, AtEach, ih hbehind, WipedFirst, WipedFirst, h]
    · have hbehind : exposed b (past ++ [e]) = exposed b past' := by
        rw [exposed_of_forall_ne (by simpa using hb), h]
      have hkept : WipedFirst b past e := fun hgives => absurd (buffer_of_givesUp hgives) hb
      rw [about_cons_of_ne hb, AtEach, ih hbehind]
      exact and_iff_right hkept

/-- Whether a buffer is wiped in time depends on its own events only. -/
theorem wipedFirst_about : AtEach (WipedFirst b) past events ↔
    AtEach (WipedFirst b) past (about b events) := wipedFirst_about_of rfl

end MemoryTraces
