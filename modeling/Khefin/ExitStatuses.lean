import Khefin.Main

/-! # Where each exit status comes from

Every stage of a run stops with statuses of its own. They are collected stage by stage, so that
what a status says about a run can be read off. -/

namespace Khefin
open CLibrary ExitingPrograms

/-- An end with a status is one with a status of the kind `S`. -/
def Halt.Among (S : ExitStatus → Prop) : Halt → Prop
  | .exit status _ => S status
  | .fault _ => True

section Statuses

variable {S : ExitStatus → Prop} {P : Platform}

theorem among_dereference {α : Type} (operation : String) (p : Option α) :
    FailsIn (Halt.Among S) (dereference operation p) := by
  cases p with
  | none => exact failsIn_error trivial
  | some a => exact failsIn_ok a

theorem among_closeAndFree (device : FidoDev) :
    StopsIn (Halt.Among S) (closeAndFreeDeviceIgnoringErrors device) := by
  refine stopsIn_bind (stopsIn_modify _) fun _ _ _ _ => ?_
  exact stopsIn_ite (fun _ => stopsIn_pure _) fun _ => stopsIn_modify _

theorem among_closeAndExit {α : Type} (device : FidoDev) {status : ExitStatus} (h : S status)
    (format : String) (arguments : List Argument) :
    StopsIn (Halt.Among S) (closeAndExit device status format arguments : Program α) :=
  stopsIn_bind (among_closeAndFree device) fun _ _ _ _ => stopsIn_lift (failsIn_error h)

/-! ## Memory -/

section Memory

variable (hmemory : S .outOfMemory)
include hmemory

theorem among_mallocOrExit (n : ℕ) (what : String) :
    FailsIn (Halt.Among S) (mallocOrExit P n what) := failsIn_stopIf fun _ => hmemory

theorem among_mallocUnlessEmpty (n : ℕ) (what : String) :
    FailsIn (Halt.Among S) (mallocUnlessEmpty P n what) := by
  unfold mallocUnlessEmpty
  split
  · exact failsIn_ok _
  · exact among_mallocOrExit hmemory n what

theorem among_strdupOrExit (str : CString) (what : String) :
    FailsIn (Halt.Among S) (strdupOrExit P str what) :=
  failsIn_bind (among_mallocOrExit hmemory _ what) fun _ _ => failsIn_ok _

theorem among_strndupOrExit (memory : Bytes) (n : ℕ) (what : String) :
    FailsIn (Halt.Among S) (strndupOrExit P memory n what) :=
  failsIn_bind (among_mallocOrExit hmemory _ what) fun _ _ => failsIn_ok _

theorem among_allocateParametersExceptRpid (m n : ℕ) :
    FailsIn (Halt.Among S) (allocateParametersExceptRpid P m n) := by
  refine failsIn_bind (among_mallocOrExit hmemory _ _) fun _ _ => ?_
  refine failsIn_bind (among_mallocUnlessEmpty hmemory _ _) fun _ _ => ?_
  refine failsIn_bind (among_mallocUnlessEmpty hmemory _ _) fun _ _ => ?_
  refine failsIn_bind (among_mallocOrExit hmemory _ _) fun _ _ => ?_
  exact failsIn_bind (failsIn_stopIf fun _ => trivial) fun _ _ => failsIn_ok _

theorem among_parametersOfSecrets (secrets : DeserializedSecrets) :
    FailsIn (Halt.Among S) (parametersOfSecrets P secrets) := by
  refine failsIn_bind (among_allocateParametersExceptRpid hmemory _ _) fun _ _ => ?_
  refine failsIn_bind (among_dereference _ _) fun _ _ => ?_
  exact failsIn_bind (among_strdupOrExit hmemory _ _) fun _ _ => failsIn_ok _

theorem among_makeKeySpecFromPassphraseAndCleartext (passphrase : Option CString)
    (cleartext : DeserializedCleartext) :
    FailsIn (Halt.Among S) (makeKeySpecFromPassphraseAndCleartext P passphrase cleartext) := by
  refine failsIn_bind (among_mallocOrExit hmemory _ _) fun _ _ => ?_
  refine failsIn_bind (among_dereference _ _) fun _ _ => ?_
  refine failsIn_bind (among_strdupOrExit hmemory _ _) fun _ _ => ?_
  exact failsIn_bind (among_mallocOrExit hmemory _ _) fun _ _ => failsIn_ok _

theorem among_mixIntoSalt (hcrypto : S .cryptographyError) (params : AuthenticatorParameters)
    (mixin : Option CString) : FailsIn (Halt.Among S) (mixIntoSalt P params mixin) := by
  cases mixin with
  | none => exact failsIn_ok _
  | some mixin =>
    refine failsIn_bind (among_mallocOrExit hmemory _ _) fun _ _ => ?_
    split
    · exact failsIn_error hcrypto
    · exact failsIn_ok _

theorem among_deriveKey (hbug : S .programmerError) (keySpec : KeySpec) :
    StopsIn (Halt.Among S) (deriveKey P keySpec) := by
  refine stopsIn_bind (stopsIn_lift (failsIn_stopIf fun _ => hbug)) fun _ _ _ _ => ?_
  refine stopsIn_bind (stopsIn_lift (among_mallocOrExit hmemory _ _)) fun _ _ _ _ => ?_
  refine stopsIn_bind (stopsIn_modify _) fun _ _ _ _ => ?_
  split
  · exact stopsIn_lift (failsIn_error hmemory)
  · exact stopsIn_pure _

/-! ## Files and their formats -/

section Formats

variable (hformat : S .deserializationError)
include hformat

theorem among_readFile (path : CString) : StopsIn (Halt.Among S) (readFile P path) := by
  refine stopsIn_bind stopsIn_get fun w _ _ _ => stopsIn_lift ?_
  refine failsIn_bind (among_mallocOrExit hmemory _ _) fun _ _ => ?_
  cases w.files path with
  | none => exact failsIn_error hformat
  | some data =>
    iterate 5 refine failsIn_bind (failsIn_stopIf fun _ => hformat) fun _ _ => ?_
    refine failsIn_bind (among_mallocOrExit hmemory _ _) fun _ _ => ?_
    refine failsIn_bind (failsIn_stopIf fun _ => hformat) fun _ _ => ?_
    exact failsIn_bind (among_mallocOrExit hmemory _ _) fun _ _ => failsIn_ok _

theorem among_bytestringField (items : List Cbor.Item) (field : ℕ) (what format : String)
    (number : ℕ) : FailsIn (Halt.Among S)
      (bytestringField P items field what (wrongFormat format number)) :=
  failsIn_bytestringField (among_dereference _ _) (fun _ _ => among_mallocUnlessEmpty hmemory _ _)
    hformat

omit hmemory in
theorem among_uintField (items : List Cbor.Item) (field : ℕ) (width : Cbor.Width)
    (message : Message) : FailsIn (Halt.Among S)
      (uintField items field width (.exit .deserializationError message)) :=
  failsIn_uintField (among_dereference _ _) hformat

omit hmemory in
theorem among_loadArray (data : Bytes) (source : List Argument) (undecodable notArray : String) :
    FailsIn (Halt.Among S) (loadArray P data source undecodable notArray) := by
  unfold loadArray
  split
  · exact failsIn_error hformat
  · exact failsIn_ok _
  · exact failsIn_error hformat

variable (hbug : S .programmerError)
include hbug

theorem among_loadCleartext (f : EncodedFile) : FailsIn (Halt.Among S) (loadCleartext P f) := by
  refine failsIn_bind (among_loadArray hformat _ _ _ _) fun items _ => ?_
  refine failsIn_bind (among_uintField hformat _ _ _ _) fun _ _ => ?_
  refine failsIn_bind (failsIn_stopIf fun _ => hformat) fun _ _ => ?_
  refine failsIn_bind (among_mallocOrExit hmemory _ _) fun _ _ => ?_
  refine failsIn_bind (failsIn_stopIf fun _ => hformat) fun _ _ => ?_
  refine failsIn_bind (among_uintField hformat _ _ _ _) fun _ _ => ?_
  refine failsIn_bind (failsIn_stopIf fun _ => hbug) fun _ _ => ?_
  iterate 2 refine failsIn_bind (among_bytestringField hmemory hformat _ _ _ _ _) fun _ _ => ?_
  iterate 3 refine failsIn_bind (among_uintField hformat _ _ _ _) fun _ _ => ?_
  iterate 2 refine failsIn_bind (among_bytestringField hmemory hformat _ _ _ _ _) fun _ _ => ?_
  exact failsIn_ok _

theorem among_loadSecretsFromBytes (decrypted : Bytes) :
    FailsIn (Halt.Among S) (loadSecretsFromBytes P decrypted) := by
  refine failsIn_bind (among_loadArray hformat _ _ _ _) fun items _ => ?_
  refine failsIn_bind (among_uintField hformat _ _ _ _) fun _ _ => ?_
  refine failsIn_bind (failsIn_stopIf fun _ => hformat) fun _ _ => ?_
  refine failsIn_bind (among_mallocOrExit hmemory _ _) fun _ _ => ?_
  refine failsIn_bind (failsIn_stopIf fun _ => hformat) fun _ _ => ?_
  refine failsIn_bind (among_uintField hformat _ _ _ _) fun _ _ => ?_
  refine failsIn_bind (failsIn_stopIf fun _ => hbug) fun _ _ => ?_
  refine failsIn_bind (failsIn_bind (among_dereference _ _) fun item _ => ?_) fun _ _ => ?_
  · cases item with
    | text data =>
      dsimp only
      split
      · exact failsIn_ok _
      · exact failsIn_bind (among_mallocOrExit hmemory _ _) fun _ _ => failsIn_ok _
    | _ => exact failsIn_error hformat
  · iterate 2 refine failsIn_bind (among_bytestringField hmemory hformat _ _ _ _ _) fun _ _ => ?_
    exact failsIn_ok _

theorem among_parametersOfDecrypted (hcrypto : S .cryptographyError) (decrypted : Bytes)
    (mixin : Option CString) :
    FailsIn (Halt.Among S) (parametersOfDecrypted P decrypted mixin) := by
  refine failsIn_bind (among_loadSecretsFromBytes hmemory hformat hbug _) fun _ _ => ?_
  refine failsIn_bind (among_parametersOfSecrets hmemory _) fun _ _ => ?_
  exact among_mixIntoSalt hmemory hcrypto _ _

end Formats

/-! ## Devices -/

section Devices

variable (hdevice : S .authenticatorError)
include hdevice

theorem among_listDevices : FailsIn (Halt.Among S) (listDevices P) := by
  refine failsIn_bind (among_mallocOrExit hmemory _ _) fun _ _ => ?_
  refine failsIn_bind (failsIn_stopIf fun _ => hmemory) fun _ _ => ?_
  split
  · exact failsIn_ok _
  · exact failsIn_bind (failsIn_stopIf fun _ => hdevice) fun _ _ => failsIn_ok _

theorem among_getDeviceEvenIfNotFido2 (device : FidoDev) :
    StopsIn (Halt.Among S) (getDeviceEvenIfNotFido2 device) := by
  refine stopsIn_bind (stopsIn_lift (failsIn_stopIf fun _ => hmemory)) fun _ _ _ _ => ?_
  refine stopsIn_bind (stopsIn_lift (failsIn_stopIf fun _ => hdevice)) fun _ _ _ _ => ?_
  exact stopsIn_modify _

theorem among_getDevice (device : FidoDev) : StopsIn (Halt.Among S) (getDevice device) :=
  stopsIn_bind (among_getDeviceEvenIfNotFido2 hmemory hdevice device) fun _ _ _ _ =>
    stopsIn_lift (failsIn_stopIf fun _ => hdevice)

theorem among_getDeviceInfo (device : FidoDev) : StopsIn (Halt.Among S) (getDeviceInfo device) := by
  refine stopsIn_bind (stopsIn_lift (failsIn_stopIf fun _ => hmemory)) fun _ _ _ _ => ?_
  refine stopsIn_bind (stopsIn_lift (failsIn_stopIf fun _ => hdevice)) fun _ _ _ _ => ?_
  exact stopsIn_pure _

omit hmemory in
theorem among_requireOk (device : FidoDev) (r : ℤ) (format : String) :
    StopsIn (Halt.Among S) (requireOk device r format) :=
  stopsIn_ite (fun _ => stopsIn_pure _) fun _ => among_closeAndExit device hdevice _ _

theorem among_printDevicesList (hnone : S .noDevices) (devices : List Authenticator) :
    StopsIn (Halt.Among S) (printDevicesList devices) := by
  have hprint : ∀ slot, StopsIn (Halt.Among S) (printDevices slot devices) := by
    induction devices with
    | nil => exact fun _ => stopsIn_pure _
    | cons a devices ih =>
      intro slot
      refine stopsIn_bind ?_ fun _ _ _ _ => ih (slot + 1)
      refine stopsIn_bind (among_getDeviceEvenIfNotFido2 hmemory hdevice _) fun _ _ _ _ => ?_
      refine stopsIn_bind (among_getDeviceInfo hmemory hdevice _) fun _ _ _ _ => ?_
      exact stopsIn_bind (stopsIn_modify _) fun _ _ _ _ => among_closeAndFree _
  exact stopsIn_bind (hprint 0) fun _ _ _ _ => stopsIn_lift (failsIn_stopIf fun _ => hnone)

/-! ## The search -/

section Search

variable (hbug : S .programmerError) (hsecret : S .unableToGetUserSecret)

omit hmemory hdevice in
include hsecret in
theorem among_authenticatorPin (device : FidoDev) (invocation : InvocationState)
    (description : CString) :
    StopsIn (Halt.Among S) (authenticatorPin P device invocation description) := by
  unfold authenticatorPin
  split
  · exact stopsIn_promptForSecret (fun _ => hsecret) _
  · exact stopsIn_pure _

include hbug in
theorem among_getSecret (device : FidoDev) (params : AuthenticatorParameters) :
    StopsIn (Halt.Among S) (getSecretFromAuthenticatorParams P device params) := by
  refine stopsIn_ite (fun _ => among_closeAndExit _ hbug _ _) fun _ => ?_
  refine stopsIn_ite (fun _ => among_closeAndExit _ hbug _ _) fun _ => ?_
  refine stopsIn_ite (fun _ => among_closeAndExit _ hmemory _ _) fun _ => ?_
  iterate 6 refine stopsIn_bind (among_requireOk hdevice _ _ _) fun _ _ _ _ => ?_
  refine stopsIn_bind (stopsIn_modify _) fun _ _ _ _ => ?_
  refine stopsIn_ite (fun _ => ?_) fun _ => ?_
  · exact stopsIn_ite (fun _ => stopsIn_pure _) fun _ => among_closeAndExit _ hdevice _ _
  · refine stopsIn_ite (fun _ => among_closeAndExit _ hdevice _ _) fun _ => ?_
    refine stopsIn_bind (stopsIn_lift (among_mallocOrExit hmemory _ _)) fun _ _ _ _ => ?_
    exact stopsIn_pure _

include hbug in
theorem among_askDevice (device : FidoDev) (params : AuthenticatorParameters) :
    StopsIn (Halt.Among S) (askDevice P device params) := by
  have hwarn : ∀ result, StopsIn (Halt.Among S) (warnAboutResult device result) := fun _ =>
    stopsIn_ite (fun _ => stopsIn_pure _) fun _ =>
      stopsIn_ite (fun _ => stopsIn_modify _) fun _ => stopsIn_modify _
  refine stopsIn_bind (stopsIn_lift (among_mallocOrExit hmemory _ _)) fun _ _ _ _ => ?_
  refine stopsIn_bind (among_getSecret hmemory hdevice hbug device params) fun _ _ _ _ => ?_
  refine stopsIn_bind (among_closeAndFree device) fun _ _ _ _ => stopsIn_ite (fun _ => ?_) fun _ => ?_
  · exact stopsIn_bind (stopsIn_modify _) fun _ _ _ _ => stopsIn_pure _
  · exact stopsIn_bind (hwarn _) fun _ _ _ _ => stopsIn_pure _

include hbug hsecret

theorem among_tryDevice (invocation : InvocationState) (c : DeserializedCleartext)
    (device : FidoDev) (params : AuthenticatorParameters) :
    StopsIn (Halt.Among S) (tryDevice P invocation c device params) := by
  refine stopsIn_bind (among_getDevice hmemory hdevice device) fun _ _ _ _ => ?_
  refine stopsIn_bind (among_getDeviceInfo hmemory hdevice device) fun _ _ _ _ => ?_
  refine stopsIn_bind (stopsIn_lift ?_) fun _ _ _ _ => ?_
  · unfold deviceAaguidMatches
    split
    · exact failsIn_ok _
    · split
      · exact failsIn_ok _
      · exact failsIn_bind (among_mallocOrExit hmemory _ _) fun _ _ => failsIn_ok _
  refine stopsIn_ite (fun _ => stopsIn_pure _) fun _ => stopsIn_ite (fun _ => ?_) fun _ => ?_
  · exact stopsIn_bind (among_closeAndFree _) fun _ _ _ _ => stopsIn_pure _
  refine stopsIn_bind (stopsIn_ite (fun _ => ?_) fun _ => stopsIn_pure _) fun _ _ _ _ => ?_
  · iterate 2
      refine stopsIn_bind (stopsIn_lift (among_mallocOrExit hmemory _ _)) fun _ _ _ _ => ?_
    exact stopsIn_bind (among_authenticatorPin hsecret _ _ _) fun _ _ _ _ => stopsIn_pure _
  refine stopsIn_ite (fun _ => ?_) fun _ => among_askDevice hmemory hdevice hbug _ _
  refine stopsIn_bind (stopsIn_modify _) fun _ _ _ _ => ?_
  exact stopsIn_bind (among_closeAndFree _) fun _ _ _ _ => stopsIn_pure _

theorem among_searchDevices (invocation : InvocationState) (c : DeserializedCleartext)
    (devices : List Authenticator) (slot : ℕ) (params : AuthenticatorParameters) :
    StopsIn (Halt.Among S) (searchDevices P invocation c slot devices params) := by
  induction devices generalizing slot params with
  | nil => exact stopsIn_pure _
  | cons a devices ih =>
    refine stopsIn_bind (among_tryDevice hmemory hdevice hbug hsecret invocation c _ params)
      fun r _ _ _ => ?_
    cases r with
    | none => exact stopsIn_pure _
    | some params' => exact ih (slot + 1) params'

end Search

end Devices

/-! ## Arguments -/

theorem among_supplyDefaults (hsecret : S .unableToGetUserSecret) (result : InvocationState) :
    StopsIn (Halt.Among S) (supplyDefaults P result) := by
  refine stopsIn_ite (fun _ => ?_) fun _ => stopsIn_pure _
  refine stopsIn_bind (stopsIn_lift (among_mallocOrExit hmemory _ _)) fun _ _ _ _ => ?_
  exact stopsIn_bind (stopsIn_promptForSecret (fun _ => hsecret) _) fun _ _ _ _ => stopsIn_pure _

theorem among_parseOptions (hformat : S .deserializationError) (options : List ReportedOption)
    (state : InvocationState × Bool) : StopsIn (Halt.Among S) (parseOptions P options state) := by
  induction options generalizing state with
  | nil => exact stopsIn_pure _
  | cons o options ih =>
    refine stopsIn_bind ?_ fun state _ _ _ => ih state
    obtain ⟨result, invalid⟩ := state
    have hdup := fun str what => among_strdupOrExit (P := P) hmemory str what
    have hndup := fun memory n what => among_strndupOrExit (P := P) hmemory memory n what
    unfold parseOption
    dsimp only
    split
    all_goals try exact stopsIn_pure _
    all_goals try exact stopsIn_bind (stopsIn_lift (hdup _ _)) fun _ _ _ _ => stopsIn_pure _
    refine stopsIn_bind (among_readFile hmemory hformat _) fun _ _ _ _ => ?_
    exact stopsIn_bind (stopsIn_lift (hndup _ _ _)) fun _ _ _ _ => stopsIn_pure _

theorem among_parseArguments (hformat : S .deserializationError) (husage : S .badInvocation)
    (hsecret : S .unableToGetUserSecret) (argv : List CString) :
    StopsIn (Halt.Among S) (parseArgumentsAndGetPassphrase P argv) := by
  have hexit : ∀ name, StopsIn (Halt.Among S) (usageAndExit name : Program InvocationState) :=
    fun _ => stopsIn_bind (stopsIn_modify _) fun _ _ _ _ => stopsIn_throw husage
  match argv with
  | [] => exact stopsIn_throw trivial
  | [name] => exact hexit name
  | name :: command :: rest =>
    rw [parseArgumentsAndGetPassphrase]
    refine stopsIn_bind (stopsIn_lift (among_mallocOrExit hmemory _ _)) fun _ _ _ _ => ?_
    split
    · exact hexit name
    · refine stopsIn_bind (among_parseOptions hmemory hformat _ _) fun state _ _ _ => ?_
      refine stopsIn_bind ?_ fun _ _ _ _ => ?_
      · exact stopsIn_ite (fun _ => stopsIn_pure _) fun _ => stopsIn_modify _
      · exact stopsIn_ite (fun _ => hexit name) fun _ => among_supplyDefaults hmemory hsecret _

/-! ## Enrolment -/

section Enrolment

variable (hformat : S .deserializationError) (hbug : S .programmerError)
  (hcrypto : S .cryptographyError)

omit hmemory in
include hformat in
theorem among_writeFile (f : EncodedFile) : StopsIn (Halt.Among S) (writeFile P f) := by
  refine stopsIn_bind (stopsIn_lift (failsIn_stopIf fun _ => hformat)) fun _ _ _ _ => ?_
  refine stopsIn_bind (stopsIn_modify _) fun _ _ _ _ => ?_
  refine stopsIn_bind (stopsIn_lift (failsIn_stopIf fun _ => hformat)) fun _ _ _ _ => ?_
  refine stopsIn_bind (stopsIn_modify _) fun _ _ _ _ => ?_
  refine stopsIn_ite (fun _ => ?_) fun _ => stopsIn_modify _
  exact stopsIn_bind (stopsIn_modify _) fun _ _ _ _ => stopsIn_lift (failsIn_error hformat)

include hbug in
theorem among_makeNewKeySpecFromInvocation (invocation : InvocationState) :
    FailsIn (Halt.Among S) (makeNewKeySpecFromInvocation P invocation) := by
  refine failsIn_bind (among_mallocOrExit hmemory _ _) fun _ _ => ?_
  refine failsIn_bind (among_dereference _ _) fun _ _ => ?_
  refine failsIn_bind (among_strdupOrExit hmemory _ _) fun _ _ => ?_
  refine failsIn_bind ?_ fun _ _ => ?_
  · cases invocation.kdfHardness <;> first | exact failsIn_ok _ | exact failsIn_error hbug
  · exact failsIn_bind (among_mallocOrExit hmemory _ _) fun _ _ => failsIn_ok _

theorem among_secretsToSeal (params : AuthenticatorParameters) (keySpec : KeySpec) :
    FailsIn (Halt.Among S) (secretsToSeal P params keySpec) := by
  iterate 4 refine failsIn_bind (among_mallocOrExit hmemory _ _) fun _ _ => ?_
  refine failsIn_bind (among_strdupOrExit hmemory _ _) fun _ _ => ?_
  iterate 2 refine failsIn_bind (among_mallocOrExit hmemory _ _) fun _ _ => ?_
  refine failsIn_bind (failsIn_bind (among_dereference _ _) fun _ _ => failsIn_ok _) fun _ _ => ?_
  split
  · exact failsIn_error hmemory
  · exact failsIn_bind (among_mallocOrExit hmemory _ _) fun _ _ => failsIn_ok _

include hbug hcrypto in
theorem among_sealKeyfile (invocation : InvocationState) (params : AuthenticatorParameters)
    (deviceInfo : CborInfo) :
    StopsIn (Halt.Among S) (sealKeyfile P invocation params deviceInfo) := by
  refine stopsIn_bind (stopsIn_lift (among_makeNewKeySpecFromInvocation hmemory hbug _))
    fun _ _ _ _ => ?_
  refine stopsIn_bind ?_ fun _ _ _ _ => ?_
  · refine stopsIn_bind (stopsIn_lift (among_secretsToSeal hmemory _ _)) fun _ _ _ _ => ?_
    refine stopsIn_bind (among_deriveKey hmemory hbug _) fun _ _ _ _ => ?_
    split
    · exact stopsIn_lift (failsIn_error hcrypto)
    · exact stopsIn_pure _
  refine stopsIn_bind (stopsIn_lift (among_mallocOrExit hmemory _ _)) fun _ _ _ _ => ?_
  refine stopsIn_bind (stopsIn_lift (among_dereference _ _)) fun _ _ _ _ => stopsIn_lift ?_
  refine failsIn_bind (among_mallocOrExit hmemory _ _) fun _ _ => ?_
  refine failsIn_bind (among_strdupOrExit hmemory _ _) fun _ _ => ?_
  split
  · exact failsIn_error hmemory
  · exact failsIn_ok _

variable (hdevice : S .authenticatorError) (hsecret : S .unableToGetUserSecret)
  (hpin : S .badPin)
include hdevice hpin

theorem among_createCredential (device : FidoDev) (params : AuthenticatorParameters) :
    StopsIn (Halt.Among S) (createCredential P device params) := by
  refine stopsIn_bind (stopsIn_lift (failsIn_stopIf fun _ => hmemory)) fun _ _ _ _ => ?_
  iterate 6 refine stopsIn_bind (among_requireOk hdevice _ _ _) fun _ _ _ _ => ?_
  refine stopsIn_bind (stopsIn_modify _) fun _ _ _ _ => ?_
  refine stopsIn_ite (fun _ => stopsIn_ite (fun _ => ?_) fun _ => ?_) fun _ => ?_
  · exact among_closeAndExit _ hpin _ _
  · exact among_closeAndExit _ hdevice _ _
  · refine stopsIn_ite (fun _ => among_closeAndExit _ hdevice _ _) fun _ => ?_
    refine stopsIn_bind (stopsIn_lift (among_mallocOrExit hmemory _ _)) fun _ _ _ _ => ?_
    exact stopsIn_pure _

include hsecret

theorem among_enrolCredential (invocation : InvocationState) :
    StopsIn (Halt.Among S) (enrolCredential P invocation) := by
  refine stopsIn_bind (stopsIn_lift (among_dereference _ _)) fun _ _ _ _ => ?_
  refine stopsIn_bind (among_getDevice hmemory hdevice _) fun _ _ _ _ => ?_
  refine stopsIn_bind (among_getDeviceInfo hmemory hdevice _) fun _ _ _ _ => ?_
  refine stopsIn_bind (stopsIn_lift (failsIn_stopIf fun _ => hdevice)) fun _ _ _ _ => ?_
  refine stopsIn_bind (stopsIn_lift ?_) fun _ _ _ _ => ?_
  · refine failsIn_bind (among_allocateParametersExceptRpid hmemory _ _) fun _ _ => ?_
    exact failsIn_bind (among_mallocOrExit hmemory _ _) fun _ _ => failsIn_ok _
  refine stopsIn_bind (stopsIn_ite (fun _ => ?_) fun _ => stopsIn_pure _) fun _ _ _ _ => ?_
  · refine stopsIn_bind (stopsIn_lift (among_mallocOrExit hmemory _ _)) fun _ _ _ _ => ?_
    refine stopsIn_bind (among_authenticatorPin hsecret _ _ _) fun _ _ _ _ => ?_
    refine stopsIn_bind (stopsIn_lift (failsIn_stopIf fun _ => hpin)) fun _ _ _ _ => ?_
    exact stopsIn_pure _
  refine stopsIn_bind (among_createCredential hmemory hdevice hpin _ _) fun _ _ _ _ => ?_
  exact stopsIn_bind (among_closeAndFree _) fun _ _ _ _ => stopsIn_pure _

include hformat hbug hcrypto

theorem among_enrolDevice (invocation : InvocationState) :
    StopsIn (Halt.Among S) (enrolDevice P invocation) := by
  refine stopsIn_bind (among_enrolCredential hmemory hdevice hsecret hpin _) fun _ _ _ _ => ?_
  refine stopsIn_bind (among_sealKeyfile hmemory hbug hcrypto _ _ _) fun _ _ _ _ => ?_
  exact among_writeFile hformat _

end Enrolment

end Memory

end Statuses

end Khefin
