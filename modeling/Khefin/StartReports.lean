import Khefin.DeviceListings
import Khefin.GenerationOutcomes

/-! # What a start reports

The output and the status are all that whoever started the program gets. -/

namespace Khefin
open CLibrary ExitingPrograms

/-! ## The box -/

/-- The keyfile and the key that its box is to be opened with. -/
def keyOfKeyfile (P : Platform) (invocation : InvocationState) :
    Program (DeserializedCleartext × Bytes) := do
  let path ← lift (dereference "fopen" invocation.file)
  let f ← readFile P path
  let cleartext ← lift (loadCleartext P f)
  let keySpec ← lift (makeKeySpecFromPassphraseAndCleartext P invocation.passphrase cleartext)
  let keyBytes ← deriveKey P keySpec
  return (cleartext, keyBytes)

/-- The box does not open with the key of the passphrase. -/
def Refuses (P : Platform) (invocation : InvocationState) (w : World) : Prop :=
  ∃ c key w₁, keyOfKeyfile P invocation w = .ok (c, key) w₁ ∧
    P.malloc (sizeSub c.encryptedData.length cryptoSecretboxMacbytes) = true ∧
    ¬(c.nonce = [] ∧ cryptoSecretboxMacbytes ≤ c.encryptedData.length) ∧
    P.sodium.cryptoSecretboxOpenEasy c.encryptedData (nonceRead P c.nonce) key = none

theorem openKeyfile_eq (P : Platform) (invocation : InvocationState) :
    openKeyfile P invocation = keyOfKeyfile P invocation >>= fun r =>
      openEncryptedData P r.1 r.2 >>= fun decrypted =>
        lift (parametersOfDecrypted P decrypted invocation.mixin) >>= fun params =>
          pure (r.1, params) := by
  simp [openKeyfile, keyOfKeyfile,
    buildAuthenticatorParametersFromDeserializedCleartextAndKeyAndMixin]

section Opening

variable {P : Platform} {invocation : InvocationState}

theorem among_keyOfKeyfile {S : ExitStatus → Prop} (hmemory : S .outOfMemory)
    (hformat : S .deserializationError) (hbug : S .programmerError) :
    StopsIn (Halt.Among S) (keyOfKeyfile P invocation) := by
  refine stopsIn_bind (stopsIn_lift (among_dereference _ _)) fun _ _ _ _ => ?_
  refine stopsIn_bind (among_readFile hmemory hformat _) fun _ _ _ _ => ?_
  refine stopsIn_bind (stopsIn_lift (among_loadCleartext hmemory hformat hbug _)) fun _ _ _ _ => ?_
  refine stopsIn_bind (stopsIn_lift (among_makeKeySpecFromPassphraseAndCleartext hmemory _ _))
    fun _ _ _ _ => ?_
  exact stopsIn_bind (among_deriveKey hmemory hbug _) fun _ _ _ _ => stopsIn_pure _

theorem openEncryptedData_refused {c : DeserializedCleartext} {key : Bytes} {w : World} :
    (∃ m w', openEncryptedData P c key w = .error (.exit .badPassphrase m) w') ↔
      P.malloc (sizeSub c.encryptedData.length cryptoSecretboxMacbytes) = true ∧
        ¬(c.nonce = [] ∧ cryptoSecretboxMacbytes ≤ c.encryptedData.length) ∧
        P.sodium.cryptoSecretboxOpenEasy c.encryptedData (nonceRead P c.nonce) key = none := by
  constructor
  · rintro ⟨m, w', h⟩
    rw [openEncryptedData] at h
    rcases bind_eq_error.mp h with h | ⟨_, w₁, hm, h⟩
    · exact absurd (stopIf_eq_error.mp (lift_eq_error.mp h).1).2 (by simp)
    rcases bind_eq_error.mp h with h | ⟨_, w₂, -, h⟩
    · simp at h
    rcases bind_eq_error.mp h with h | ⟨_, w₃, hn, h⟩
    · exact absurd (stopIf_eq_error.mp (lift_eq_error.mp h).1).2 (by simp)
    cases ho : P.sodium.cryptoSecretboxOpenEasy c.encryptedData (nonceRead P c.nonce) key with
    | none =>
      exact ⟨mallocOrExit_eq_ok.mp (lift_eq_ok.mp hm).1, stopIf_eq_ok.mp (lift_eq_ok.mp hn).1, rfl⟩
    | some decrypted => simp [ho] at h
  · rintro ⟨hm, hn, ho⟩
    have hrefused : openEncryptedData P c key w = .error (.exit .badPassphrase
        ⟨"Could not decrypt secrets; this likely means the passphrase was wrong", []⟩)
        (w.record (.cryptoSecretboxOpenEasy c.nonce c.encryptedData.length)) := by
      rw [openEncryptedData, bind_of_ok (lift_eq_ok.mpr ⟨mallocOrExit_of hm _, rfl⟩),
        bind_of_ok (record_apply _ _), bind_of_ok (lift_eq_ok.mpr ⟨stopIf_neg hn _, rfl⟩), ho]
      rfl
    exact ⟨_, _, hrefused⟩

/-- A keyfile is said to have a wrong passphrase for one reason only. -/
theorem openKeyfile_refused {w : World} :
    (∃ m w', openKeyfile P invocation w = .error (.exit .badPassphrase m) w') ↔
      Refuses P invocation w := by
  rw [openKeyfile_eq, Refuses]
  constructor
  · rintro ⟨m, w', h⟩
    rcases bind_eq_error.mp h with h | ⟨⟨c, key⟩, w₁, hkey, h⟩
    · exact absurd rfl (among_keyOfKeyfile (S := (· ≠ .badPassphrase)) (by decide) (by decide)
        (by decide) _ _ _ h)
    have hbox : openEncryptedData P c key w₁ = .error (.exit .badPassphrase m) w' := ?_
    exact ⟨c, key, w₁, hkey, openEncryptedData_refused.mp ⟨m, w', hbox⟩⟩
    rcases bind_eq_error.mp h with h | ⟨decrypted, w₂, -, h⟩
    · exact h
    · rcases bind_eq_error.mp h with h | ⟨_, _, -, h⟩
      · exact absurd rfl (stopsIn_lift (among_parametersOfDecrypted (S := (· ≠ .badPassphrase))
          (by decide) (by decide) (by decide) (by decide) _ _) _ _ _ h)
      · simp at h
  · rintro ⟨c, key, w₁, hkey, hrefused⟩
    obtain ⟨m, w', h⟩ := openEncryptedData_refused.mpr hrefused
    exact ⟨m, w', by rw [bind_of_ok hkey, bind_of_error h]⟩

theorem among_openKeyfile {S : ExitStatus → Prop} (hmemory : S .outOfMemory)
    (hformat : S .deserializationError) (hbug : S .programmerError) (hcrypto : S .cryptographyError)
    (hpassphrase : S .badPassphrase) : StopsIn (Halt.Among S) (openKeyfile P invocation) := by
  rw [openKeyfile_eq]
  refine stopsIn_bind (among_keyOfKeyfile hmemory hformat hbug) fun r _ _ _ => ?_
  refine stopsIn_bind ?_ fun _ _ _ _ => ?_
  · refine stopsIn_bind (stopsIn_lift (among_mallocOrExit hmemory _ _)) fun _ _ _ _ => ?_
    refine stopsIn_bind (stopsIn_modify _) fun _ _ _ _ => ?_
    refine stopsIn_bind (stopsIn_lift (failsIn_stopIf fun _ => trivial)) fun _ _ _ _ => ?_
    split
    · exact stopsIn_lift (failsIn_error hpassphrase)
    · exact stopsIn_pure _
  · refine stopsIn_bind (stopsIn_lift ?_) fun _ _ _ _ => stopsIn_pure _
    exact among_parametersOfDecrypted hmemory hformat hbug hcrypto _ _

end Opening

/-! ## The output -/

instance (a : Authenticator) : Decidable a.GivesInfo :=
  decidable_of_iff (a.fidoDevNew = true ∧ a.fidoDevOpen = fidoOk ∧ a.fidoCborInfoNew = true ∧
    a.fidoDevGetCborInfo = fidoOk)
    ⟨fun ⟨hnew, hopen, hinfo, hget⟩ => ⟨hnew, hopen, hinfo, hget⟩,
      fun ⟨hnew, hopen, hinfo, hget⟩ => ⟨hnew, hopen, hinfo, hget⟩⟩

/-- The lines of the devices in front of the first one that gives no information. -/
def listing (devices : List Authenticator) : Bytes :=
  (devices.takeWhile fun a => decide a.GivesInfo).flatMap fun a => deviceLine a a.cborInfo

theorem stdout_printDevicesList (devices : List Authenticator) (w : World) :
    (finalState (printDevicesList devices w)).stdout = w.stdout ++ listing devices := by
  have hprint : ∀ slot w,
      (finalState (printDevices slot devices w)).stdout = w.stdout ++ listing devices := by
    induction devices with
    | nil => exact fun slot w => (List.append_nil _).symm
    | cons a devices ih =>
      intro slot w
      rw [printDevices, listing]
      by_cases hgives : a.GivesInfo
      · rw [bind_of_ok (@printDevice_of_givesInfo ⟨slot, a⟩ hgives w), ih (slot + 1)]
        simp [listing, hgives]
      · obtain ⟨w', ⟨status, m, -, hstop⟩, hout⟩ := @printDevice_of_not_givesInfo ⟨slot, a⟩ hgives w
        simp [bind_of_error hstop, hgives, hout]
  rw [printDevicesList, ← hprint 0 w]
  cases hrun : printDevices 0 devices w with
  | error e w' => rw [bind_of_error hrun]
  | ok u w' =>
    rw [bind_of_ok hrun]
    exact keeps_lift (R := SameOutput) _ w'

def helpScreen (name : CString) : Bytes :=
  usage name ++ helpLines.flatMap fun line => (literal line).bytes ++ [newline]

def versionText : Bytes :=
  (literal appname).bytes ++ [0x20] ++ (literal appversion).bytes ++ [newline]

theorem printDevicesList_eq_ok {devices : List Authenticator} {w : World} :
    (∃ w', printDevicesList devices w = .ok () w') ↔
      devices ≠ [] ∧ ∀ a ∈ devices, a.GivesInfo := by
  by_cases hall : ∀ a ∈ devices, a.GivesInfo
  · obtain ⟨w', hrun, -⟩ := printDevices_of_givesInfo hall 0 w
    rw [printDevicesList, bind_of_ok hrun]
    by_cases hempty : devices = [] <;> simp [stopIf, hempty]
    exact fun a ha => hall a ha
  · obtain ⟨w', before, a, after, ⟨status, message, hne, hrun⟩, -, -⟩ :=
      printDevices_of_not_givesInfo hall 0 w
    rw [printDevicesList, bind_of_error hrun]
    simp [hall]

theorem sameOutput_enrolDevice (P : Platform) (invocation : InvocationState) :
    Keeps SameOutput (enrolDevice P invocation) := by
  have hidle : ∀ w w', Idly w w' → SameOutput w w' := fun w w' h => h.2.1
  refine keeps_enrolDevice (tolerates_sameOutput _) (fun _ _ _ => rfl) ?_
  exact (idly_enrolCredential P invocation).mono hidle

namespace Launch

/-- The start got to this subcommand. -/
def Runs (l : Launch) (subcommand : Subcommand) (invocation : InvocationState) (w : World) : Prop :=
  l.parsed = some (invocation, w) ∧ invocation.subcommand = subcommand

/-- What can be read off the standard output of a start. -/
structure OutputTells (l : Launch) : Prop where
  refused : l.parsed = none → l.status ≠ some .success ∧
    (l.status ≠ some .badInvocation ∧ l.output = [] ∨
      l.status = some .badInvocation ∧ l.output = usage (l.argv.headD (literal "")))
  helped : ∀ invocation w, l.Runs .help invocation w → l.status = some .success ∧
    l.output = helpScreen (l.argv.headD (literal ""))
  versioned : ∀ invocation w, l.Runs .version invocation w → l.status = some .success ∧
    l.output = versionText
  unhandled : ∀ invocation w, l.Runs .unknown invocation w → l.status = some .programmerError ∧
    l.output = []
  enrolled : ∀ invocation w, l.Runs .enrol invocation w → l.output = []
  generated : ∀ invocation w, l.Runs .generate invocation w →
    (l.status = some .success ↔ l.output ≠ []) ∧
    (l.output ≠ [] → ∃ devices, listDevices l.platform = .ok devices ∧
      ∃ a ∈ devices, ∃ request secret, a.fidoDevGetAssert request = (fidoOk, secret) ∧
        l.output = hexLine secret)
  listed : ∀ invocation w, l.Runs .enumerate invocation w → ∀ devices,
    listDevices l.platform = .ok devices → l.output = listing devices ∧
      (l.status = some .success ↔ devices ≠ [] ∧ ∀ a ∈ devices, a.GivesInfo) ∧
      (l.status = some .noDevices ↔ devices = [])
  unlisted : ∀ invocation w, l.Runs .enumerate invocation w → ∀ e,
    listDevices l.platform = .error e → l.status ≠ some .success ∧ l.output = []

variable {l : Launch} {invocation : InvocationState} {w : World}

theorem among_of_not_parsed {S : ExitStatus → Prop} (hmemory : S .outOfMemory)
    (hformat : S .deserializationError) (husage : S .badInvocation)
    (hsecret : S .unableToGetUserSecret) (hcrypto : S .cryptographyError) (h : l.parsed = none)
    {status : ExitStatus} (hstatus : l.status = some status) : S status := by
  unfold parsed at h
  split at h
  · next hsodium =>
    have hstop : l.result = .error _ l.world :=
      bind_of_error (lift_eq_error.mpr ⟨stopIf_pos hsodium _, rfl⟩) _
    exact status_of_error hstop hcrypto hstatus
  · next hsodium =>
    rw [Bool.not_eq_false] at hsodium
    split at h
    · simp at h
    · next e w hparse =>
      have hstop : l.result = .error e w := by
        rw [result, main_of_sodiumInit hsodium, bind_of_error hparse]
      exact status_of_error hstop
        (among_parseArguments hmemory hformat husage hsecret _ _ _ _ hparse) hstatus

theorem output_eq (h : l.parsed = some (invocation, w)) : w.stdout = [] :=
  (result_of_parsed h).2.2

/-- A generation that stops does not stop with success. -/
theorem status_ne_success_of_stopped (h : l.Runs .generate invocation w) {e : Halt} {w' : World}
    (hstop : l.result = .error e w') : l.status ≠ some .success := by
  intro hstatus
  have hrun := generationRun h.1 h.2
  have hfails : e.Among (· ≠ .success) := by
    rw [hstop] at hrun
    cases hrun with
    | unlisted listed => exact among_listDevices (by decide) (by decide) _ listed
    | unopened _ opened =>
      exact among_openKeyfile (by decide) (by decide) (by decide) (by decide) (by decide) _ _ _ opened
    | stopped _ _ searched =>
      exact among_searchDevices (by decide) (by decide) (by decide) (by decide) _ _ _ _ _ _ _ _
        searched
    | @missed devices =>
      change (if devices = [] then _ else _) ≠ ExitStatus.success
      split <;> decide
  exact absurd rfl (status_of_error hstop hfails hstatus)

/-- A generation that succeeds has found its device. -/
theorem found_of_success (h : l.Runs .generate invocation w) (hstatus : l.status = some .success) :
    ∃ w', l.result = .ok .success w' ∧
      GenerationRun l.platform invocation w (.ok .success w') := by
  have hrun := generationRun h.1 h.2
  cases hresult : l.result with
  | error e w' => exact absurd hstatus (status_ne_success_of_stopped h hresult)
  | ok status w' =>
    rw [hresult] at hrun
    cases hrun with | found listed opened searched => exact ⟨w', rfl, .found listed opened searched⟩

theorem generated_output (h : l.Runs .generate invocation w) :
    (l.status = some .success ↔ l.output ≠ []) ∧
    (l.output ≠ [] → ∃ devices, listDevices l.platform = .ok devices ∧
      ∃ a ∈ devices, ∃ request secret, a.fidoDevGetAssert request = (fidoOk, secret) ∧
        l.output = hexLine secret) := by
  have hrun := generationRun h.1 h.2
  cases hresult : l.result with
  | error e w' =>
    rw [hresult] at hrun
    have hout : l.output = [] := by
      rw [output, hresult, finalState_error, hrun.stdout_of_error, output_eq h.1]
    simp [hout, status_ne_success_of_stopped h hresult]
  | ok status w' =>
    rw [hresult] at hrun
    cases hrun with | found listed opened searched =>
    obtain ⟨a, ha, request, secret, hanswer, -, -, hout⟩ :=
      GenerationRun.spec_of_found opened searched
    have hprinted : l.output = hexLine secret := by
      rw [output, hresult, finalState_ok, hout, output_eq h.1, List.nil_append]
    have hne : l.output ≠ [] := by
      rw [hprinted, hexLine]
      simp
    exact ⟨by simp [status_of_ok hresult, hne], fun _ => ⟨_, listed, a, ha, request, secret,
      hanswer, hprinted⟩⟩

theorem listed_output (h : l.Runs .enumerate invocation w) {devices : List Authenticator}
    (hlisted : listDevices l.platform = .ok devices) : l.output = listing devices ∧
      (l.status = some .success ↔ devices ≠ [] ∧ ∀ a ∈ devices, a.GivesInfo) := by
  have hresult := (result_of_parsed h.1).1
  have hprinted := stdout_printDevicesList devices w
  rw [output_eq h.1, List.nil_append] at hprinted
  simp only [runSubcommand, h.2, hlisted] at hresult
  rw [bind_of_ok (lift_eq_ok.mpr ⟨rfl, rfl⟩)] at hresult
  rw [← printDevicesList_eq_ok (w := w)]
  cases hrun : printDevicesList devices w with
  | error e w' =>
    rw [bind_of_error hrun] at hresult
    rw [hrun] at hprinted
    refine ⟨by rw [output, hresult]; exact hprinted, ?_⟩
    have hfails := among_printDevicesList (S := (· ≠ .success)) (by decide) (by decide) (by decide)
      devices w e w' hrun
    exact ⟨fun hstatus => absurd rfl (status_of_error hresult hfails hstatus), by simp⟩
  | ok u w' =>
    rw [bind_of_ok hrun] at hresult
    rw [hrun] at hprinted
    exact ⟨by rw [output, hresult]; exact hprinted, by simp [status_of_ok hresult]⟩

theorem unlisted_output (h : l.Runs .enumerate invocation w) {e : Halt}
    (hunlisted : listDevices l.platform = .error e) :
    l.status ≠ some .success ∧ l.output = [] := by
  have hresult := (result_of_parsed h.1).1
  simp only [runSubcommand, h.2, hunlisted] at hresult
  rw [bind_of_error (lift_eq_error.mpr ⟨rfl, rfl⟩)] at hresult
  refine ⟨fun hstatus => ?_, ?_⟩
  · exact absurd rfl (status_of_error hresult
      (among_listDevices (S := (· ≠ .success)) (by decide) (by decide) e hunlisted) hstatus)
  · rw [output, hresult, finalState_error, output_eq h.1]

theorem noDevices_of_enumerate (h : l.Runs .enumerate invocation w) :
    l.status = some .noDevices ↔ listDevices l.platform = .ok [] := by
  have hresult := (result_of_parsed h.1).1
  simp only [runSubcommand, h.2] at hresult
  cases hlisted : listDevices l.platform with
  | error e =>
    rw [hlisted, bind_of_error (lift_eq_error.mpr ⟨rfl, rfl⟩)] at hresult
    refine ⟨fun hstatus => ?_, fun heq => by simp at heq⟩
    exact absurd rfl (status_of_error hresult
      (among_listDevices (S := (· ≠ .noDevices)) (by decide) (by decide) e hlisted) hstatus)
  | ok devices =>
    rw [hlisted, bind_of_ok (lift_eq_ok.mpr ⟨rfl, rfl⟩)] at hresult
    rw [Except.ok.injEq, ← noDevices_iff devices w]
    constructor
    · intro hstatus
      cases hrun : printDevicesList devices w with
      | ok u w' =>
        rw [bind_of_ok hrun] at hresult
        exact absurd ((status_of_ok hresult).symm.trans hstatus) (by simp)
      | error e w' =>
        rw [bind_of_error hrun] at hresult
        rw [Launch.status, hresult] at hstatus
        cases e with
        | exit status m =>
          obtain rfl := Option.some.inj hstatus
          exact ⟨m, w', rfl⟩
        | fault operation => simp at hstatus
    · rintro ⟨m, w', hrun⟩
      rw [bind_of_error hrun] at hresult
      rw [Launch.status, hresult]

/-- Standard output and status together tell what was printed, and whether all of it was. -/
theorem outputTells (l : Launch) : l.OutputTells where
  refused h := by
    obtain ⟨e, w, hresult, -, hout⟩ := result_of_not_parsed h
    refine ⟨fun hstatus => ?_, ?_⟩
    · exact absurd rfl (among_of_not_parsed (S := (· ≠ .success)) (by decide) (by decide) (by decide)
        (by decide) (by decide) h hstatus)
    · rw [output, hresult]
      exact hout
  helped invocation w h := by
    have hresult := (result_of_parsed h.1).1
    simp only [runSubcommand, h.2, printHelp, bind_assoc, bind_of_ok (modify_apply _ _)] at hresult
    refine ⟨status_of_ok hresult, ?_⟩
    rw [output, hresult]
    simp [helpScreen, World.printf, output_eq h.1]
  versioned invocation w h := by
    have hresult := (result_of_parsed h.1).1
    simp only [runSubcommand, h.2, printVersion, bind_of_ok (modify_apply _ _)] at hresult
    refine ⟨status_of_ok hresult, ?_⟩
    rw [output, hresult]
    simp [versionText, World.printf, output_eq h.1]
  unhandled invocation w h := by
    have hresult := (result_of_parsed h.1).1
    simp only [runSubcommand, h.2] at hresult
    refine ⟨by rw [status, hresult]; rfl, ?_⟩
    rw [output, hresult]
    exact output_eq h.1
  enrolled invocation w h := by
    have hkept := sameOutput_enrolDevice l.platform invocation w
    rw [output, (result_of_parsed h.1).1, runSubcommand_enrol h.2]
    cases hrun : enrolDevice l.platform invocation w with
    | error e w' =>
      rw [hrun] at hkept
      rw [bind_of_error hrun]
      exact hkept.trans (output_eq h.1)
    | ok u w' =>
      rw [hrun] at hkept
      rw [bind_of_ok hrun]
      exact hkept.trans (output_eq h.1)
  generated _ _ h := generated_output h
  listed _ _ h devices hlisted := by
    obtain ⟨hout, hstatus⟩ := listed_output h hlisted
    exact ⟨hout, hstatus, by rw [noDevices_of_enumerate h, hlisted, Except.ok.injEq]⟩
  unlisted _ _ h _ hunlisted := unlisted_output h hunlisted

/-! ## The status -/

/-- Statuses that say little about how far a run got. -/
def commonStatuses : List ExitStatus :=
  [.success, .outOfMemory, .deserializationError, .programmerError, .cryptographyError,
    .authenticatorError, .unableToGetUserSecret]

/-- The statuses that a subcommand can end with. -/
def statusesOf : Subcommand → List ExitStatus
  | .help | .version => [.success]
  | .enumerate => [.success, .outOfMemory, .authenticatorError, .noDevices]
  | .enrol => commonStatuses ++ [.badPin]
  | .generate => commonStatuses ++ [.badPassphrase, .noDevices, .noValidAuthenticator]
  | .unknown => [.programmerError]

/-- What can be read off the status of a start. -/
structure StatusesTell (l : Launch) : Prop where
  badInvocation : l.status = some .badInvocation → l.parsed = none ∧ l.filesAfter = l.files ∧
    l.output = usage (l.argv.headD (literal ""))
  badPassphrase : l.status = some .badPassphrase ↔ ∃ invocation w devices,
    l.Runs .generate invocation w ∧ listDevices l.platform = .ok devices ∧
      Refuses l.platform invocation w
  noDevices : l.status = some .noDevices ↔ listDevices l.platform = .ok [] ∧ ∃ invocation w,
    l.Runs .enumerate invocation w ∨ l.Runs .generate invocation w ∧
      ∃ opened w₁, openKeyfile l.platform invocation w = .ok opened w₁
  noValidAuthenticator : l.status = some .noValidAuthenticator ↔ ∃ invocation w devices c params w₁,
    l.Runs .generate invocation w ∧ listDevices l.platform = .ok devices ∧ devices ≠ [] ∧
      openKeyfile l.platform invocation w = .ok (c, params) w₁ ∧
        ∃ w₂, searchDevices l.platform invocation c 0 devices params w₁ = .ok false w₂
  badPin : l.status = some .badPin → l.filesAfter = l.files ∧ ∃ invocation w,
    l.Runs .enrol invocation w
  overPrivileged : l.status ≠ some .overPrivileged

variable {status : ExitStatus}

theorem status_of_not_parsed (h : l.parsed = none) (hstatus : l.status = some status) :
    status ∈ [.cryptographyError, .outOfMemory, .deserializationError, .badInvocation,
      .unableToGetUserSecret] :=
  among_of_not_parsed (by decide) (by decide) (by decide) (by decide) (by decide) h hstatus

theorem status_of_enrol (h : l.Runs .enrol invocation w) (hstatus : l.status = some status) :
    status ∈ statusesOf .enrol := by
  have hresult := (result_of_parsed h.1).1
  rw [runSubcommand_enrol h.2] at hresult
  cases hrun : enrolDevice l.platform invocation w with
  | ok u w' =>
    rw [bind_of_ok hrun] at hresult
    obtain rfl := Option.some.inj ((status_of_ok hresult).symm.trans hstatus)
    decide
  | error e w' =>
    rw [bind_of_error hrun] at hresult
    exact status_of_error hresult (among_enrolDevice (by decide) (by decide) (by decide) (by decide)
      (by decide) (by decide) (by decide) invocation w e w' hrun) hstatus

theorem status_of_enumerate (h : l.Runs .enumerate invocation w) (hstatus : l.status = some status) :
    status ∈ statusesOf .enumerate := by
  have hresult := (result_of_parsed h.1).1
  simp only [runSubcommand, h.2] at hresult
  cases hlisted : listDevices l.platform with
  | error e =>
    rw [hlisted, bind_of_error (lift_eq_error.mpr ⟨rfl, rfl⟩)] at hresult
    exact status_of_error hresult (among_listDevices (by decide) (by decide) e hlisted) hstatus
  | ok devices =>
    rw [hlisted, bind_of_ok (lift_eq_ok.mpr ⟨rfl, rfl⟩)] at hresult
    cases hrun : printDevicesList devices w with
    | ok u w' =>
      rw [bind_of_ok hrun] at hresult
      obtain rfl := Option.some.inj ((status_of_ok hresult).symm.trans hstatus)
      decide
    | error e w' =>
      rw [bind_of_error hrun] at hresult
      exact status_of_error hresult (among_printDevicesList (by decide) (by decide) (by decide)
        devices w e w' hrun) hstatus

/-- The statuses of a generation, each with what it is for. -/
theorem status_of_generate (h : l.Runs .generate invocation w) (hstatus : l.status = some status) :
    status ∈ commonStatuses ∨ ∃ devices, listDevices l.platform = .ok devices ∧
      (status = .badPassphrase ∧ Refuses l.platform invocation w ∨
      ∃ c params w₁, openKeyfile l.platform invocation w = .ok (c, params) w₁ ∧
        ∃ w₂, searchDevices l.platform invocation c 0 devices params w₁ = .ok false w₂ ∧
          status = if devices = [] then .noDevices else .noValidAuthenticator) := by
  have hrun := generationRun h.1 h.2
  generalize hresult : l.result = r at hrun
  cases hrun with
  | unlisted listed =>
    exact .inl (status_of_error hresult (among_listDevices (by decide) (by decide) _ listed) hstatus)
  | @unopened devices e w' listed opened =>
    have hamong := among_openKeyfile (S := fun s => s = .badPassphrase ∨ s ∈ commonStatuses)
      (by decide) (by decide) (by decide) (by decide) (by decide) _ _ _ opened
    rcases status_of_error hresult hamong hstatus with rfl | hmem
    · refine .inr ⟨devices, listed, .inl ⟨rfl, openKeyfile_refused.mp ?_⟩⟩
      rw [Launch.status, hresult] at hstatus
      cases e with
      | exit status m =>
        obtain rfl := Option.some.inj hstatus
        exact ⟨m, w', opened⟩
      | fault operation => simp at hstatus
    · exact .inl hmem
  | stopped listed opened searched =>
    exact .inl (status_of_error hresult (among_searchDevices (by decide) (by decide) (by decide)
      (by decide) _ _ _ _ _ _ _ _ searched) hstatus)
  | @missed devices c params w₁ w' listed opened searched m =>
    rw [Launch.status, hresult] at hstatus
    exact .inr ⟨devices, listed, .inr ⟨c, params, w₁, opened, w', searched,
      (Option.some.inj hstatus).symm⟩⟩
  | found =>
    obtain rfl := Option.some.inj ((status_of_ok hresult).symm.trans hstatus)
    exact .inl (by decide)

/-- What stops a generation is its result. -/
theorem result_of_unopened (h : l.Runs .generate invocation w) {devices : List Authenticator}
    (hlisted : listDevices l.platform = .ok devices) {e : Halt} {w' : World}
    (hopened : openKeyfile l.platform invocation w = .error e w') : l.result = .error e w' := by
  have hrun := generationRun h.1 h.2
  generalize l.result = r at hrun
  cases hrun <;> simp_all

theorem status_of_missed (h : l.Runs .generate invocation w) {devices : List Authenticator}
    (hlisted : listDevices l.platform = .ok devices) {c : DeserializedCleartext}
    {params : AuthenticatorParameters} {w₁ w₂ : World}
    (hopened : openKeyfile l.platform invocation w = .ok (c, params) w₁)
    (hsearched : searchDevices l.platform invocation c 0 devices params w₁ = .ok false w₂) :
    l.status = some (if devices = [] then .noDevices else .noValidAuthenticator) := by
  have hrun := generationRun h.1 h.2
  unfold Launch.status
  generalize l.result = r at hrun
  cases hrun <;> simp_all

theorem status_mem_statusesOf (h : l.parsed = some (invocation, w))
    (hstatus : l.status = some status) : status ∈ statusesOf invocation.subcommand := by
  have hresult := (result_of_parsed h).1
  cases hsub : invocation.subcommand with
  | enrol => exact status_of_enrol ⟨h, hsub⟩ hstatus
  | enumerate => exact status_of_enumerate ⟨h, hsub⟩ hstatus
  | generate =>
    rcases status_of_generate ⟨h, hsub⟩ hstatus with
      hmem | ⟨devices, -, ⟨rfl, -⟩ | ⟨_, _, _, -, _, -, rfl⟩⟩
    · exact List.mem_append_left _ hmem
    · decide
    · split <;> decide
  | _ =>
    simp only [runSubcommand, hsub] at hresult
    rw [Launch.status, hresult] at hstatus
    obtain rfl := Option.some.inj hstatus
    decide

/-- A status that no start gives before its subcommand is one of the subcommand. -/
theorem exists_runs_of_status (hstatus : l.status = some status)
    (h : status ∉ [ExitStatus.cryptographyError, .outOfMemory, .deserializationError,
      .badInvocation, .unableToGetUserSecret]) :
    ∃ invocation w, l.parsed = some (invocation, w) ∧ status ∈ statusesOf invocation.subcommand := by
  cases hparsed : l.parsed with
  | none => exact absurd (status_of_not_parsed hparsed hstatus) h
  | some parsed => exact ⟨parsed.1, parsed.2, rfl, status_mem_statusesOf hparsed hstatus⟩

theorem not_mem_statusesOf {subcommand : Subcommand} :
    .badInvocation ∉ statusesOf subcommand ∧ .overPrivileged ∉ statusesOf subcommand := by
  cases subcommand <;> decide

theorem mem_statusesOf {subcommand : Subcommand} :
    (.badPassphrase ∈ statusesOf subcommand → subcommand = .generate) ∧
    (.noValidAuthenticator ∈ statusesOf subcommand → subcommand = .generate) ∧
    (.badPin ∈ statusesOf subcommand → subcommand = .enrol) ∧
    (.noDevices ∈ statusesOf subcommand → subcommand = .enumerate ∨ subcommand = .generate) := by
  cases subcommand <;> decide

/-- No file is written before the PIN has been accepted. -/
theorem filesAfter_of_badPin (h : l.Runs .enrol invocation w) (hstatus : l.status = some .badPin) :
    l.filesAfter = l.files := by
  obtain ⟨hresult, hunseen⟩ := result_of_parsed h.1
  rw [runSubcommand_enrol h.2] at hresult
  rcases enrolDevice_cases l.platform invocation w with ⟨e, w', he, hquiet⟩ | ⟨run, rfl, he⟩
  · rw [bind_of_error he] at hresult
    rw [filesAfter, hresult]
    exact hquiet.1.trans hunseen.1
  · cases hwrite : writeFile l.platform run.file run.finish with
    | ok u w' =>
      rw [bind_of_ok (he.trans hwrite)] at hresult
      exact absurd ((status_of_ok hresult).symm.trans hstatus) (by simp)
    | error e w' =>
      rw [bind_of_error (he.trans hwrite)] at hresult
      exact absurd rfl (status_of_error hresult
        (among_writeFile (S := (· ≠ .badPin)) (by decide) run.file _ _ _ hwrite) hstatus)

theorem badPassphrase_iff : l.status = some .badPassphrase ↔ ∃ invocation w devices,
    l.Runs .generate invocation w ∧ listDevices l.platform = .ok devices ∧
      Refuses l.platform invocation w := by
  constructor
  · intro h
    obtain ⟨invocation, w, hparsed, hmem⟩ := exists_runs_of_status h (by decide)
    have hruns : l.Runs .generate invocation w := ⟨hparsed, mem_statusesOf.1 hmem⟩
    rcases status_of_generate hruns h with hmem | ⟨devices, hlisted, ⟨-, hrefuses⟩ | hmissed⟩
    · exact absurd hmem (by decide)
    · exact ⟨invocation, w, devices, hruns, hlisted, hrefuses⟩
    · obtain ⟨_, _, _, -, _, -, hstatus⟩ := hmissed
      split at hstatus <;> simp at hstatus
  · rintro ⟨invocation, w, devices, hruns, hlisted, hrefuses⟩
    obtain ⟨m, w', hopened⟩ := openKeyfile_refused.mpr hrefuses
    rw [Launch.status, result_of_unopened hruns hlisted hopened]

theorem noValidAuthenticator_iff : l.status = some .noValidAuthenticator ↔
    ∃ invocation w devices c params w₁, l.Runs .generate invocation w ∧
      listDevices l.platform = .ok devices ∧ devices ≠ [] ∧
        openKeyfile l.platform invocation w = .ok (c, params) w₁ ∧
          ∃ w₂, searchDevices l.platform invocation c 0 devices params w₁ = .ok false w₂ := by
  constructor
  · intro h
    obtain ⟨invocation, w, hparsed, hmem⟩ := exists_runs_of_status h (by decide)
    have hruns : l.Runs .generate invocation w := ⟨hparsed, mem_statusesOf.2.1 hmem⟩
    rcases status_of_generate hruns h with
      hmem | ⟨devices, hlisted, ⟨hstatus, -⟩ | ⟨c, params, w₁, hopened, w₂, hsearched, hstatus⟩⟩
    · exact absurd hmem (by decide)
    · simp at hstatus
    · refine ⟨invocation, w, devices, c, params, w₁, hruns, hlisted, ?_, hopened, w₂, hsearched⟩
      rintro rfl
      simp at hstatus
  · rintro ⟨invocation, w, devices, c, params, w₁, hruns, hlisted, hne, hopened, w₂, hsearched⟩
    rw [status_of_missed hruns hlisted hopened hsearched, if_neg hne]

theorem noDevices_of_generate (h : l.Runs .generate invocation w) :
    l.status = some .noDevices ↔ listDevices l.platform = .ok [] ∧
      ∃ opened w₁, openKeyfile l.platform invocation w = .ok opened w₁ := by
  constructor
  · intro hstatus
    rcases status_of_generate h hstatus with
      hmem | ⟨devices, hlisted, ⟨hne, -⟩ | ⟨c, params, w₁, hopened, w₂, hsearched, heq⟩⟩
    · exact absurd hmem (by decide)
    · simp at hne
    · cases devices with
      | nil => exact ⟨hlisted, _, w₁, hopened⟩
      | cons a devices => simp at heq
  · rintro ⟨hlisted, ⟨c, params⟩, w₁, hopened⟩
    rw [status_of_missed h hlisted hopened rfl, if_pos rfl]

/-- Each status is given for one thing only. -/
theorem statusesTell (l : Launch) : l.StatusesTell where
  badInvocation h := by
    cases hparsed : l.parsed with
    | none =>
      obtain ⟨e, w, hresult, hfiles, hout⟩ := result_of_not_parsed hparsed
      rw [filesAfter, output, hresult]
      rcases hout with ⟨hne, -⟩ | ⟨-, hout⟩
      · exact absurd h hne
      · exact ⟨rfl, hfiles, hout⟩
    | some parsed => exact absurd (status_mem_statusesOf hparsed h) not_mem_statusesOf.1
  badPassphrase := badPassphrase_iff
  noDevices := by
    constructor
    · intro h
      obtain ⟨invocation, w, hparsed, hmem⟩ := exists_runs_of_status h (by decide)
      rcases mem_statusesOf.2.2.2 hmem with hsub | hsub
      · exact ⟨(noDevices_of_enumerate ⟨hparsed, hsub⟩).mp h, invocation, w, .inl ⟨hparsed, hsub⟩⟩
      · obtain ⟨hlisted, hopened⟩ := (noDevices_of_generate ⟨hparsed, hsub⟩).mp h
        exact ⟨hlisted, invocation, w, .inr ⟨⟨hparsed, hsub⟩, hopened⟩⟩
    · rintro ⟨hlisted, invocation, w, hruns | ⟨hruns, hopened⟩⟩
      · exact (noDevices_of_enumerate hruns).mpr hlisted
      · exact (noDevices_of_generate hruns).mpr ⟨hlisted, hopened⟩
  noValidAuthenticator := noValidAuthenticator_iff
  badPin h := by
    obtain ⟨invocation, w, hparsed, hmem⟩ := exists_runs_of_status h (by decide)
    have hruns : l.Runs .enrol invocation w := ⟨hparsed, mem_statusesOf.2.2.1 hmem⟩
    exact ⟨filesAfter_of_badPin hruns h, invocation, w, hruns⟩
  overPrivileged h := by
    obtain ⟨invocation, w, -, hmem⟩ := exists_runs_of_status h (by decide)
    exact not_mem_statusesOf.2 hmem

/-! ## The exit code -/

/-- `$?` behind a start, in the shell that made it; a signal gives a number above 128. -/
def LeavesCode (l : Launch) (code : ℕ) : Prop :=
  match l.status with
  | some status => code = status.code
  | none => 128 < code

theorem LeavesCode.eq_code_iff {code : ℕ} (h : l.LeavesCode code) (status : ExitStatus) :
    code = status.code ↔ l.status = some status := by
  unfold LeavesCode at h
  cases hstatus : l.status with
  | some status' =>
    rw [hstatus] at h
    rw [h, ExitStatus.code_injective.eq_iff, Option.some.injEq]
  | none =>
    rw [hstatus] at h
    have hsmall : status.code ≤ 128 := by cases status <;> decide
    constructor
    · intro hcode
      have hlarge : 128 < code := h
      omega
    · intro hnone
      simp at hnone

end Launch

end Khefin
