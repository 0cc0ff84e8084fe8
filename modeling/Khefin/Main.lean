import Khefin.Enrol
import Khefin.Enumerate
import Khefin.Help
import Khefin.SearchRuns

/-! # The program

From the argument vector to the exit status. Only enrolment ever touches a file. -/

namespace Khefin
open CLibrary ExitingPrograms

/-- The switch over the subcommand. -/
def runSubcommand (P : Platform) (name : CString) (invocation : InvocationState) :
    Program ExitStatus :=
  match invocation.subcommand with
  | .help => do
    printHelp name
    return .success
  | .version => do
    printVersion
    return .success
  | .enumerate => do
    let devicesList ← lift (listDevices P)
    printDevicesList devicesList
    return .success
  | .enrol => do
    enrolDevice P invocation
    return .success
  | .generate => do
    let devicesList ← lift (listDevices P)
    match ← printSecretConsumingInvocation P invocation devicesList with
    | .noDevices => lift (errx .noDevices
        "Unable to find an appropriate authenticator to generate a secret")
    | .noValidAuthenticator => lift (errx .noValidAuthenticator
        "No connected authenticator was able to generate a valid secret")
    | .success => return .success
    | status => lift (errx .programmerError
        "BUG (%s:%d): unhandled return value from print_secret_consuming_invocation() (%d)"
        [.text "main", .number 72, .number status.code])
  | .unknown => lift (errx .programmerError
      "BUG (%s:%d): unhandled but valid subcommand (%d)\n" [.text "main", .number 79, .number 0])

/-- An empty argument vector never gets past the parser. -/
def main (P : Platform) (argv : List CString) : Program ExitStatus := do
  lift (stopIf (P.sodiumInit = false)
    (.exit .cryptographyError ⟨"Unable to initialize libsodium", []⟩))
  let invocation ← parseArgumentsAndGetPassphrase P argv
  runSubcommand P (argv.headD (literal "")) invocation

theorem main_of_sodiumInit {P : Platform} (hsodium : P.sodiumInit = true) (argv : List CString)
    (w : World) : main P argv w = (parseArgumentsAndGetPassphrase P argv >>=
      runSubcommand P (argv.headD (literal ""))) w := by
  have hinit : (lift (stopIf (P.sodiumInit = false) (.exit .cryptographyError
      ⟨"Unable to initialize libsodium", []⟩)) : Program Unit) w = .ok () w :=
    lift_eq_ok.mpr ⟨stopIf_neg (by simp [hsodium]) _, rfl⟩
  rw [main, bind_of_ok hinit]

theorem runSubcommand_enrol {P : Platform} {invocation : InvocationState}
    (h : invocation.subcommand = .enrol) (name : CString) :
    runSubcommand P name invocation = (do
      enrolDevice P invocation
      return .success) := by
  unfold runSubcommand
  rw [h]

/-! ## What a run keeps -/

section Runs

variable {R : World → World → Prop} [IsPreorder World R]

theorem keeps_parseOption (P : Platform) (state : InvocationState × Bool) (o : ReportedOption) :
    Keeps R (parseOption P state o) := by
  obtain ⟨result, invalid⟩ := state
  unfold parseOption
  dsimp only
  split
  all_goals try exact keeps_pure _
  all_goals try exact keeps_bind (keeps_lift _) fun _ => keeps_pure _
  refine keeps_bind (keeps_readFile _ _) fun _ => ?_
  exact keeps_bind (keeps_lift _) fun _ => keeps_pure _

theorem keeps_parseOptions (P : Platform) (options : List ReportedOption)
    (state : InvocationState × Bool) : Keeps R (parseOptions P options state) := by
  induction options generalizing state with
  | nil => exact keeps_pure _
  | cons o options ih => exact keeps_bind (keeps_parseOption P state o) fun state => ih state

theorem keeps_supplyDefaults {P : Platform}
    (hprompt : Keeps R (promptForSecret P (literal "passphrase") longestValidPassphrase))
    (result : InvocationState) : Keeps R (supplyDefaults P result) := by
  refine keeps_ite (fun _ => ?_) fun _ => keeps_pure _
  exact keeps_bind (keeps_lift _) fun _ => keeps_bind hprompt fun _ => keeps_pure _

variable (hR : Tolerates Event.IsRoutine R)

theorem keeps_enrolDevice (hkeys : Tolerates Event.IsKeyWork R)
    (hstore : ∀ w path content, R w (World.store path content w)) {P : Platform}
    {invocation : InvocationState} (hcredential : Keeps R (enrolCredential P invocation)) :
    Keeps R (enrolDevice P invocation) := by
  refine keeps_bind hcredential fun _ => ?_
  exact keeps_bind (keeps_sealKeyfile hkeys _ _ _ _) fun f => keeps_writeFile hstore P f

include hR

theorem keeps_reportExtraArguments (name : CString) (extra : List CString) :
    Keeps R (reportExtraArguments name extra) :=
  keeps_ite (fun _ => keeps_pure _) fun _ => keeps_record hR trivial

variable (hprinted : ∀ w output, R w (World.printf output w))

omit hR [IsPreorder World R] in
include hprinted in
theorem keeps_printf (output : Bytes) : Keeps R (modify (World.printf output) : Program Unit) :=
  keeps_modify fun w => hprinted w output

omit hR in
include hprinted in
theorem keeps_usageAndExit {α : Type} (name : CString) : Keeps R (usageAndExit (α := α) name) :=
  keeps_bind (keeps_printf hprinted _) fun _ => keeps_throw _

include hprinted

theorem keeps_completeInvocation {P : Platform}
    (hprompt : Keeps R (promptForSecret P (literal "passphrase") longestValidPassphrase))
    (name : CString) (operands : List CString) (state : InvocationState × Bool) :
    Keeps R (completeInvocation P name operands state) := by
  refine keeps_bind (keeps_reportExtraArguments hR _ _) fun _ => ?_
  exact keeps_ite (fun _ => keeps_usageAndExit hprinted name) fun _ => keeps_supplyDefaults hprompt _

theorem keeps_parseArguments {P : Platform}
    (hprompt : Keeps R (promptForSecret P (literal "passphrase") longestValidPassphrase))
    (argv : List CString) : Keeps R (parseArgumentsAndGetPassphrase P argv) := by
  match argv with
  | [] => exact keeps_throw _
  | [name] => exact keeps_usageAndExit hprinted name
  | name :: command :: rest =>
    refine keeps_bind (keeps_lift _) fun _ => ?_
    split
    · exact keeps_usageAndExit hprinted name
    · refine keeps_bind (keeps_parseOptions _ _ _) fun _ => ?_
      exact keeps_completeInvocation hR hprinted hprompt _ _ _

theorem keeps_printDevices (slot : ℕ) (devices : List Authenticator) :
    Keeps R (printDevices slot devices) := by
  induction devices generalizing slot with
  | nil => exact keeps_pure _
  | cons a devices ih =>
    refine keeps_bind ?_ fun _ => ih (slot + 1)
    refine keeps_bind ?_ fun _ => ?_
    · refine keeps_bind (keeps_lift _) fun _ => keeps_bind (keeps_lift _) fun _ => ?_
      exact keeps_record hR trivial
    refine keeps_bind (keeps_getDeviceInfo _) fun _ => ?_
    refine keeps_bind (keeps_printf hprinted _) fun _ => ?_
    exact keeps_closeAndFreeDeviceIgnoringErrors hR _

/-- A search keeps what asking for PINs and for assertions would. -/
theorem keeps_search {P : Platform}
    (hprompt : ∀ a : Authenticator, Keeps R (promptForSecret P (pinPrompt a) longestValidPin))
    (hask : ∀ w slot request, R w (w.record (.fidoDevGetAssert slot request)))
    (invocation : InvocationState) (c : DeserializedCleartext) (slot : ℕ)
    (devices : List Authenticator) (params : AuthenticatorParameters) :
    Keeps R (searchDevices P invocation c slot devices params) := by
  induction devices generalizing slot params with
  | nil => exact keeps_pure _
  | cons a devices ih =>
    refine keeps_bind (fun w => ?_) fun found => ?_
    · refine related_tryDevice hR hprinted (fun _ => ?_) fun _ params' w' _ _ => hask w' slot _
      exact keeps_pinForGeneration ⟨slot, a⟩ (hprompt a) _ _ _
    · cases found with
      | none => exact keeps_pure _
      | some params => exact ih (slot + 1) params

theorem keeps_printSecret (hkeys : Tolerates Event.IsKeyWork R) {P : Platform}
    (hprompt : ∀ a : Authenticator, Keeps R (promptForSecret P (pinPrompt a) longestValidPin))
    (hask : ∀ w slot request, R w (w.record (.fidoDevGetAssert slot request)))
    (invocation : InvocationState) (devices : List Authenticator) :
    Keeps R (printSecretConsumingInvocation P invocation devices) := by
  refine keeps_bind (keeps_openKeyfile hkeys P invocation) fun _ => ?_
  refine keeps_bind (keeps_search hR hprinted hprompt hask _ _ _ _ _) fun _ => ?_
  exact keeps_ite (fun _ => keeps_pure _) fun _ =>
    keeps_ite (fun _ => keeps_pure _) fun _ => keeps_pure _

/-- Enrolment is left to the caller. -/
theorem keeps_runSubcommand (hkeys : Tolerates Event.IsKeyWork R) {P : Platform}
    (hprompt : ∀ a : Authenticator, Keeps R (promptForSecret P (pinPrompt a) longestValidPin))
    (hask : ∀ w slot request, R w (w.record (.fidoDevGetAssert slot request))) (name : CString)
    {invocation : InvocationState}
    (henrol : invocation.subcommand = .enrol → Keeps R (enrolDevice P invocation)) :
    Keeps R (runSubcommand P name invocation) := by
  unfold runSubcommand
  split
  · refine keeps_bind ?_ fun _ => keeps_pure _
    exact keeps_bind (keeps_printf hprinted _) fun _ => keeps_printf hprinted _
  · exact keeps_bind (keeps_printf hprinted _) fun _ => keeps_pure _
  · refine keeps_bind (keeps_lift _) fun _ => keeps_bind ?_ fun _ => keeps_pure _
    exact keeps_bind (keeps_printDevices hR hprinted _ _) fun _ => keeps_lift _
  · exact keeps_bind (henrol ‹_›) fun _ => keeps_pure _
  · refine keeps_bind (keeps_lift _) fun _ => ?_
    refine keeps_bind (keeps_printSecret hR hprinted hkeys hprompt hask _ _) fun status => ?_
    cases status <;> first | exact keeps_pure _ | exact keeps_lift _
  · exact keeps_lift _

end Runs

/-! ## Files -/

/-- No file is created or changed. -/
def SameFiles (w w' : World) : Prop := w'.files = w.files

instance : IsPreorder World SameFiles where
  refl _ := rfl
  trans _ _ _ h h' := Eq.trans h' h

theorem tolerates_sameFiles (S : Event → Prop) : Tolerates S SameFiles := fun _ _ _ => rfl

theorem sameFiles_promptForSecret (P : Platform) (description : CString) (maximumSize : ℕ) :
    Keeps SameFiles (promptForSecret P description maximumSize) :=
  keeps_promptForSecret (tolerates_sameFiles _) (fun _ _ => rfl) P description maximumSize

theorem sameFiles_parseArguments (P : Platform) (argv : List CString) :
    Keeps SameFiles (parseArgumentsAndGetPassphrase P argv) :=
  keeps_parseArguments (tolerates_sameFiles _) (fun _ _ => rfl) (sameFiles_promptForSecret P _ _) argv

/-- Only enrolment touches a file. -/
theorem sameFiles_runSubcommand (P : Platform) (name : CString) {invocation : InvocationState}
    (h : invocation.subcommand ≠ .enrol) : Keeps SameFiles (runSubcommand P name invocation) :=
  keeps_runSubcommand (tolerates_sameFiles _) (fun _ _ => rfl) (tolerates_sameFiles _)
    (fun _ => sameFiles_promptForSecret P _ _) (fun _ _ _ => rfl) name fun henrol => absurd henrol h

/-- A run leaves all files as they are, unless it gets as far as an enrolment. -/
theorem main_cases (P : Platform) (argv : List CString) (w : World) :
    SameFiles w (finalState (main P argv w)) ∨
      ∃ invocation w₁, parseArgumentsAndGetPassphrase P argv w = .ok invocation w₁ ∧
        invocation.subcommand = .enrol ∧ SameFiles w w₁ ∧ main P argv w = (do
          enrolDevice P invocation
          return .success : Program ExitStatus) w₁ := by
  by_cases hsodium : P.sodiumInit = true
  · rw [main_of_sodiumInit hsodium]
    have hsame := sameFiles_parseArguments P argv w
    cases hparse : parseArgumentsAndGetPassphrase P argv w with
    | error h w' =>
      rw [hparse] at hsame
      rw [bind_of_error hparse]
      exact Or.inl hsame
    | ok invocation w₁ =>
      rw [hparse] at hsame
      rw [bind_of_ok hparse]
      by_cases henrol : invocation.subcommand = .enrol
      · rw [runSubcommand_enrol henrol]
        exact Or.inr ⟨invocation, w₁, rfl, henrol, hsame, rfl⟩
      · have hrest := sameFiles_runSubcommand P (argv.headD (literal "")) henrol w₁
        exact Or.inl (trans_of SameFiles hsame hrest)
  · have hstop : main P argv w = _ :=
      bind_of_error (lift_eq_error.mpr ⟨stopIf_pos (by simpa using hsodium) _, rfl⟩) _
    rw [hstop]
    exact Or.inl rfl

end Khefin
