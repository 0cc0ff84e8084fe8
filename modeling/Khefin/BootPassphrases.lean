import Khefin.BootUnlocking

/-! # Boots with one passphrase

Where the same passphrase is given each time, it is the one that every keyfile is tried with. -/

namespace Khefin.BootHook
open CLibrary EarlyLoops Shell

/-- The passphrase is hard-coded, or typed at each prompt. -/
structure Boot.Gives (boot : Boot) (passphrase : Bytes) : Prop where
  hardcoded : boot.passphrasePromptOption = .never → boot.encryptedKeyfilePassphrase = some passphrase
  typed : boot.passphrasePromptOption ≠ .never → ∀ n, trimmed (boot.typed n) = passphrase

/-- The next attempt is made with the passphrase, as all have been so far. -/
structure Sticks (boot : Boot) (passphrase : Bytes) (s : State) : Prop where
  isDirectory : s.isDirectory = true
  given : isDefined s.passphrase = true → s.passphrase = some passphrase
  hardcoded : boot.passphrasePromptOption = .never → isDefined s.passphrase = true
  starts : ∀ start ∈ s.starts, start.passphrase = passphrase

variable {boot : Boot} {passphrase : Bytes} {s s' : State} {keyfile : Bytes}

theorem Tried.starts (h : Tried boot keyfile s s') : s'.starts =
    s.starts ++ [⟨keyfile, (attemptOf boot s).passphrase, (attemptOf boot s).status⟩] := by
  rw [State.starts_eq, h.work, List.filterMap_append, ← State.starts_eq, Attempt.events]
  cases (attemptOf boot s).prompted <;> rfl

theorem Sticks.startKeyfile (h : Sticks boot passphrase s) :
    Sticks boot passphrase (startKeyfile boot s) := by
  constructor
  case isDirectory => exact h.isDirectory
  case starts => exact h.starts
  all_goals unfold BootHook.startKeyfile
  case given =>
    split
    · simp
    · exact h.given
  case hardcoded =>
    intro hnever
    rw [if_neg (by simp [hnever])]
    exact h.hardcoded hnever

end Khefin.BootHook
