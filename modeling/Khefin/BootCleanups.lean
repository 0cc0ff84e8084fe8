import Khefin.BootUnlocking

/-! # The clean-up at boot

Once the disk is open another hook removes what has been left at the mount point. Its first command
is one that ends the shell where there is no directory. -/

namespace Khefin.BootHook
open CLibrary EarlyLoops

/-! ## The directory at the mount point -/

abbrev Files := CString → Option Bytes

/-- The directory at the mount point, and the file system that is mounted there. -/
structure Mounts where
  directory : Option Files
  mounted : Option Files := none

namespace Mounts

/-- The files that are found at the path. -/
def visible (p : Mounts) : Option Files := p.mounted.or p.directory

def change (f : Files → Files) (p : Mounts) : Mounts :=
  match p.mounted with
  | some files => { p with mounted := some (f files) }
  | none => { p with directory := p.directory.map f }

/-- `: < /dev/null > path` -/
def empty (path : CString) (p : Mounts) : Option Mounts :=
  if p.visible.isSome then some (p.change (Function.update · path (some []))) else none

/-- `rm -f path` -/
def remove (path : CString) (p : Mounts) : Mounts := p.change (Function.update · path none)

def umount (works : Bool) (p : Mounts) : Mounts := if works then { p with mounted := none } else p

/-- `rm -rf`: a directory that is mounted on is emptied, but stays. -/
def removeAll (p : Mounts) : Mounts :=
  match p.mounted with
  | some _ => { p with mounted := some fun _ => none }
  | none => ⟨none, none⟩

end Mounts

/-- The redirection of `:` is an error that ends the shell. -/
def runCleanuphook (umounts : Bool) (p : Mounts) : Ending × Mounts :=
  match p.empty diskKeyFile with
  | none => (.shellExited, p)
  | some p =>
    (.returned, (((p.remove diskKeyFile).remove passphraseFile).umount umounts).removeAll)

/-- What a run leaves at the mount point, where there was `before`. -/
def Machine.leaves (m : Machine) (mounts : Bool) (before : Option Files) (boot : Boot) (o : Outcome) :
    Mounts :=
  let made (files : Files) : Files :=
    if o.state.starts = [] then files
    else Function.update (Function.update files diskKeyFile (m.diskKey o.state.starts))
      passphraseFile o.state.passphraseFile
  if .mount ∈ o.state.trace ∧ boot.mountPoint ≠ .otherFile then
    if mounts then ⟨some (before.getD fun _ => none), some (made fun _ => none)⟩
    else ⟨some (made (before.getD fun _ => none)), none⟩
  else ⟨before, none⟩

/-! ## What the commands do -/

section Commands

variable {umounts : Bool} {p : Mounts}

theorem runCleanuphook_shellExited_iff :
    (runCleanuphook umounts p).1 = .shellExited ↔ p.visible = none := by
  unfold runCleanuphook Mounts.empty
  cases p.visible <;> simp

theorem visible_removeAll (files : Files) (h : p.removeAll.visible = some files) (path : CString) :
    files path = none := by
  unfold Mounts.removeAll at h
  split at h
  · obtain rfl := Option.some.inj h
    rfl
  · cases h

/-- Where the clean-up gets to its end it leaves no file, and nothing at all if the file system
can be unmounted. -/
theorem runCleanuphook_returned (h : (runCleanuphook umounts p).1 = .returned) :
    (∀ files, (runCleanuphook umounts p).2.visible = some files → ∀ path, files path = none) ∧
      (umounts = true → (runCleanuphook umounts p).2 = ⟨none, none⟩) := by
  unfold runCleanuphook at h ⊢
  split at h
  · cases h
  · exact ⟨visible_removeAll, fun hworks => by rw [hworks]; rfl⟩

end Commands

/-! ## After a boot -/

section Boots

variable {boot : Boot} {o : Outcome} {m : Machine} {mounts : Bool} {before : Option Files}

theorem endsWithin_runHook_mounts (henters : boot.entersLoop = true)
    (hpath : boot.mountPoint ≠ .otherFile) :
    EndsWithin boot.limit (runHook · boot) fun o => .mount ∈ o.state.trace := by
  obtain ⟨events, -, -, hends⟩ := endsWithin_runHook henters hpath
  obtain ⟨after, -, -, hmount, hprepare⟩ := prepare_eq boot (boot.initial.record events)
  refine hends.imp ?_
  rintro o ⟨turns, h⟩
  apply h.trace.subset
  rw [hprepare]
  exact List.mem_append_right _ (List.mem_append_right _ hmount)

/-- Without an authenticator nothing is mounted. -/
theorem endsWithin_runHook_not_mounts (henters : boot.entersLoop = false) :
    EndsWithin boot.limit (runHook · boot) fun o => .mount ∉ o.state.trace := by
  obtain ⟨events, message, -, -, hmount, hrun⟩ := runHook_of_not_entersLoop henters
  rw [hrun]
  refine endsWithin_some fun hmem => ?_
  rcases List.mem_append.mp hmem with hmem | hmem
  · exact hmount hmem
  · cases List.mem_singleton.mp hmem

theorem visible_leaves_of_mount (hmount : .mount ∈ o.state.trace)
    (hpath : boot.mountPoint ≠ .otherFile) : (m.leaves mounts before boot o).visible ≠ none := by
  rw [Machine.leaves, if_pos ⟨hmount, hpath⟩]
  cases mounts <;> simp [Mounts.visible]

theorem visible_leaves_of_not (h : ¬(.mount ∈ o.state.trace ∧ boot.mountPoint ≠ .otherFile)) :
    (m.leaves mounts before boot o).visible = before := by
  rw [Machine.leaves, if_neg h]
  rfl

/-- The clean-up takes the whole shell with it exactly where the hook has found no directory and made
none, and then no key has been exported. Otherwise it leaves nothing behind. -/
theorem cleanup_leaves_nothing (m : Machine) (mounts umounts : Bool) (hbefore : before = none ↔
      boot.mountPoint = .absent ∨ boot.mountPoint = .otherFile) :
    EndsWithin boot.limit (runHook · boot) fun o =>
      ((runCleanuphook umounts (m.leaves mounts before boot o)).1 = .shellExited ↔
        boot.mountPoint = .otherFile ∨ boot.entersLoop = false ∧ boot.mountPoint = .absent) ∧
      ((runCleanuphook umounts (m.leaves mounts before boot o)).1 = .shellExited →
        o.state.cryptkey = false) ∧
      ((runCleanuphook umounts (m.leaves mounts before boot o)).1 = .returned →
        (∀ files, (runCleanuphook umounts (m.leaves mounts before boot o)).2.visible = some files →
          ∀ path, files path = none) ∧
        (umounts = true →
          (runCleanuphook umounts (m.leaves mounts before boot o)).2 = ⟨none, none⟩)) := by
  have hmounted : EndsWithin boot.limit (runHook · boot) fun o =>
      ((m.leaves mounts before boot o).visible = none ↔
        boot.mountPoint = .otherFile ∨ boot.entersLoop = false ∧ boot.mountPoint = .absent) ∧
      ((m.leaves mounts before boot o).visible = none → o.state.cryptkey = false) := by
    by_cases hpath : boot.mountPoint = .otherFile
    · refine (endsWithin_runHook_fruitless (.inr hpath)).imp fun o h => ⟨?_, fun _ => h.2⟩
      rw [visible_leaves_of_not (by simp [hpath]), hbefore]
      simp [hpath]
    · cases henters : boot.entersLoop with
      | true =>
        refine (endsWithin_runHook_mounts henters hpath).imp fun o hmount => ?_
        have hvisible := @visible_leaves_of_mount boot o m mounts before hmount hpath
        simp [hvisible, hpath]
      | false =>
        refine ((endsWithin_runHook_fruitless (.inl henters)).and
          (endsWithin_runHook_not_mounts henters)).imp fun o h => ⟨?_, fun _ => h.1.2⟩
        rw [visible_leaves_of_not (by simp [h.2]), hbefore]
        simp [hpath]
  refine hmounted.imp fun o h => ?_
  rw [runCleanuphook_shellExited_iff]
  exact ⟨h.1, h.2, runCleanuphook_returned⟩

theorem cleanup_leaves_nothing_reference :
    ∃ o, runHook guessingBoot.limit guessingBoot = some o ∧ o.state.cryptkey = true ∧
      runCleanuphook true (referenceMachine.leaves true none guessingBoot o) =
        (.returned, ⟨none, none⟩) := by
  obtain ⟨o, hrun, -, hkey⟩ := exists_guesses
  have habsent : guessingBoot.mountPoint = .absent := rfl
  have hends := @cleanup_leaves_nothing guessingBoot none referenceMachine true true
    (by simp [habsent])
  obtain ⟨-, hkeeps, hclean⟩ := hends.of_run (Nat.le_refl _) hrun
  refine ⟨o, hrun, hkey, ?_⟩
  cases hending : (runCleanuphook true (referenceMachine.leaves true none guessingBoot o)).1 with
  | shellExited => cases hkey.symm.trans (hkeeps hending)
  | returned => exact Prod.ext hending ((hclean hending).2 rfl)

end Boots

end Khefin.BootHook
