import Khefin.ExitStatuses

/-! # Starts of the program

A start finds files and standard input, and leaves files, standard output and an exit status. -/

namespace Khefin
open CLibrary ExitingPrograms

structure Launch where
  platform : Platform
  argv : List CString
  files : CString → Option Bytes
  stdin : Bytes := []

namespace Launch

def world (l : Launch) : World := ⟨l.files, l.stdin, [], []⟩

def result (l : Launch) : EStateM.Result Halt World ExitStatus := main l.platform l.argv l.world

def filesAfter (l : Launch) : CString → Option Bytes := (finalState l.result).files

def output (l : Launch) : Bytes := (finalState l.result).stdout

/-- A process that a signal has ended has no status of its own. -/
def status (l : Launch) : Option ExitStatus :=
  match l.result with
  | .ok status _ | .error (.exit status _) _ => some status
  | .error (.fault _) _ => none

/-- The invocation that a subcommand is run for, and the world it is run in. -/
def parsed (l : Launch) : Option (InvocationState × World) :=
  if l.platform.sodiumInit = false then none
  else match parseArgumentsAndGetPassphrase l.platform l.argv l.world with
    | .ok invocation w => some (invocation, w)
    | .error _ _ => none

end Launch

/-! ## From the arguments to the subcommand -/

/-- Nothing is printed, and no file is touched. -/
def Unseen (w w' : World) : Prop := w'.files = w.files ∧ w'.stdout = w.stdout

instance : IsPreorder World Unseen where
  refl _ := ⟨rfl, rfl⟩
  trans _ _ _ h h' := ⟨h'.1.trans h.1, h'.2.trans h.2⟩

theorem tolerates_unseen (S : Event → Prop) : Tolerates S Unseen := fun _ _ _ => ⟨rfl, rfl⟩

theorem unseen_promptForSecret (P : Platform) (description : CString) (maximumSize : ℕ) :
    Keeps Unseen (promptForSecret P description maximumSize) :=
  keeps_promptForSecret (tolerates_unseen _) (fun _ _ => ⟨rfl, rfl⟩) P description maximumSize

/-- The run touches nothing that is seen outside, and does not end over the usage. -/
def EndsUnseen {α : Type} (w : World) (r : EStateM.Result Halt World α) : Prop :=
  Unseen w (finalState r) ∧ ∀ e w', r = .error e w' → e.Among (· ≠ .badInvocation)

theorem endsUnseen_of {α : Type} {x : Program α} (hkeeps : Keeps Unseen x)
    (hstops : StopsIn (Halt.Among (· ≠ .badInvocation)) x) {w w₁ : World} (h : Unseen w w₁) :
    EndsUnseen w (x w₁) := ⟨trans_of Unseen h (hkeeps w₁), hstops w₁⟩

theorem EndsUnseen.error {α β : Type} {w w' : World} {e : Halt}
    (h : EndsUnseen w (.error e w' : EStateM.Result Halt World α)) :
    EndsUnseen w (.error e w' : EStateM.Result Halt World β) :=
  ⟨h.1, fun e' w'' he => h.2 e' w'' (by rw [(EStateM.Result.error.inj he).1,
    (EStateM.Result.error.inj he).2])⟩

/-- Reading the arguments prints nothing but the usage, and then it stops. -/
theorem parseArguments_cases (P : Platform) (argv : List CString) (w : World) :
    (∃ w', Unseen w w' ∧ parseArgumentsAndGetPassphrase P argv w =
      .error (.exit .badInvocation ⟨"", []⟩) (w'.printf (usage (argv.headD (literal ""))))) ∨
    EndsUnseen w (parseArgumentsAndGetPassphrase P argv w) := by
  match argv with
  | [] =>
    have hfault : Halt.Among (· ≠ .badInvocation) (.fault "argv[0]") := trivial
    exact .inr (endsUnseen_of (keeps_throw _) (stopsIn_throw hfault) (refl_of Unseen w))
  | [name] => exact .inl ⟨w, refl_of Unseen w, rfl⟩
  | name :: command :: rest =>
    have hdefaults : ∀ result, Keeps Unseen (supplyDefaults P result) :=
      keeps_supplyDefaults (unseen_promptForSecret P _ _)
    rw [parseArgumentsAndGetPassphrase]
    have hstate := among_mallocOrExit (S := (· ≠ .badInvocation)) (P := P) (by decide)
      sizeofInvocationState "invocation state"
    cases hmalloc : mallocOrExit P sizeofInvocationState "invocation state" with
    | error e =>
      rw [bind_of_error (lift_eq_error.mpr ⟨rfl, rfl⟩)]
      have hstop := hstate e hmalloc
      exact .inr (endsUnseen_of (x := throw e) (keeps_throw e) (stopsIn_throw hstop)
        (refl_of Unseen w))
    | ok u =>
      rw [bind_of_ok (lift_eq_ok.mpr ⟨rfl, rfl⟩)]
      cases hcommand : subcommandOf command with
      | none => exact .inl ⟨w, refl_of Unseen w, rfl⟩
      | some subcommand =>
        dsimp only
        have hoptions := endsUnseen_of (keeps_parseOptions P _ _)
          (among_parseOptions (P := P) (by decide) (by decide)
            (P.getoptLong (name :: command :: rest)).options ({ subcommand }, false))
          (refl_of Unseen w)
        cases hparsed : parseOptions P (P.getoptLong (name :: command :: rest)).options
            ({ subcommand }, false) w with
        | error e w₁ =>
          rw [bind_of_error hparsed]
          rw [hparsed] at hoptions
          exact .inr hoptions.error
        | ok state w₁ =>
          rw [bind_of_ok hparsed, completeInvocation]
          rw [hparsed] at hoptions
          generalize lateSubcommand state.1 _ = result
          generalize extraArguments result _ = extra
          obtain ⟨w₂, hreported⟩ : ∃ w₂, reportExtraArguments name extra w₁ = .ok () w₂ := by
            unfold reportExtraArguments
            split <;> exact ⟨_, rfl⟩
          have hreport := (keeps_reportExtraArguments (tolerates_unseen _) name extra).of_ok hreported
          have hseen := trans_of Unseen hoptions.1 hreport
          rw [bind_of_ok hreported]
          split
          · exact .inl ⟨w₂, hseen, rfl⟩
          · exact .inr (endsUnseen_of (hdefaults result)
              (among_supplyDefaults (by decide) (by decide) result) hseen)

namespace Launch

variable {l : Launch} {invocation : InvocationState} {w : World}

theorem status_of_ok {status : ExitStatus} {w' : World} (h : l.result = .ok status w') :
    l.status = some status := by rw [Launch.status, h]

theorem status_of_error {S : ExitStatus → Prop} {status : ExitStatus} {e : Halt} {w' : World}
    (h : l.result = .error e w') (hS : e.Among S) (hstatus : l.status = some status) : S status := by
  rw [Launch.status, h] at hstatus
  cases e with
  | exit status' m =>
    obtain rfl := Option.some.inj hstatus
    exact hS
  | fault operation => simp at hstatus

theorem result_of_parsed (h : l.parsed = some (invocation, w)) :
    l.result = runSubcommand l.platform (l.argv.headD (literal "")) invocation w ∧
      Unseen l.world w := by
  unfold parsed at h
  split at h
  · simp at h
  · next hsodium =>
    split at h
    · next invocation' w' hparse =>
      obtain ⟨rfl, rfl⟩ := Prod.mk.inj (Option.some.inj h)
      rw [Bool.not_eq_false] at hsodium
      refine ⟨by rw [result, main_of_sodiumInit hsodium, bind_of_ok hparse], ?_⟩
      rcases parseArguments_cases l.platform l.argv l.world with ⟨w', -, hstop⟩ | hunseen
      · simp [hstop] at hparse
      · rw [hparse] at hunseen
        exact hunseen.1
    · simp at h

theorem files_eq (h : l.parsed = some (invocation, w)) : w.files = l.files :=
  (result_of_parsed h).2.1

/-- A start that does not get to its subcommand leaves everything as it is, but for the usage. -/
theorem result_of_not_parsed (h : l.parsed = none) : ∃ e w, l.result = .error e w ∧
    w.files = l.files ∧
    (l.status ≠ some .badInvocation ∧ w.stdout = [] ∨ l.status = some .badInvocation ∧
      w.stdout = usage (l.argv.headD (literal ""))) := by
  unfold parsed at h
  split at h
  · next hsodium =>
    have hstop : l.result = .error _ l.world :=
      bind_of_error (lift_eq_error.mpr ⟨stopIf_pos hsodium _, rfl⟩) _
    refine ⟨_, _, hstop, rfl, .inl ⟨fun hstatus => ?_, rfl⟩⟩
    exact status_of_error (S := (· ≠ .badInvocation)) hstop ExitStatus.noConfusion hstatus rfl
  · next hsodium =>
    rw [Bool.not_eq_false] at hsodium
    split at h
    · simp at h
    · next e w hparse =>
      have hstop : l.result = .error e w := by
        rw [result, main_of_sodiumInit hsodium, bind_of_error hparse]
      refine ⟨e, w, hstop, ?_⟩
      rcases parseArguments_cases l.platform l.argv l.world with ⟨w', hseen, husage⟩ | hseen
      · obtain ⟨rfl, rfl⟩ := EStateM.Result.error.inj (hparse.symm.trans husage)
        refine ⟨hseen.1, .inr ⟨by rw [status, hstop], ?_⟩⟩
        rw [World.printf_stdout, hseen.2]
        rfl
      · rw [hparse] at hseen
        refine ⟨hseen.1.1, .inl ⟨fun hstatus => ?_, hseen.1.2⟩⟩
        exact status_of_error hstop (hseen.2 e w rfl) hstatus rfl

end Launch

end Khefin
