import Khefin.DeviceTurns
import Khefin.EnrolmentRuns
import Khefin.SecretsCodec

/-! # Stopping with a status that blames neither the program nor the memory

Where memory suffices for every size an object can have, reading the secrets of a box
and searching for a device stop only with such a status, as long as the secrets have what
an assertion needs. -/

namespace Khefin
open CLibrary ExitingPrograms

/-- The process is not said to be defective or out of memory. -/
def Halt.IsProper : Halt → Prop
  | .exit status _ => status ≠ .programmerError ∧ status ≠ .outOfMemory
  | .fault _ => True

/-- Everything of a size an object can have is allocated, and nothing else. -/
def Platform.Plentiful (P : Platform) : Prop := ∀ n, P.malloc n = true ↔ n ≤ ptrdiffMax

/-- Handling the device never lacks memory. -/
structure Authenticator.Affordable (a : Authenticator) : Prop where
  fidoDevNew : a.fidoDevNew = true
  fidoCborInfoNew : a.fidoCborInfoNew = true
  fidoAssertNew : a.fidoAssertNew = true
  prompt : (literal promptFormatString).length + a.productString.length + a.path.length + 1 ≤
    ptrdiffMax
  secret : ∀ request, (a.fidoDevGetAssert request).2.length ≤ ptrdiffMax

/-- Secrets that parameters are built from have a credential id and a salt. -/
def SecretsUsable (P : Platform) (decrypted : Bytes) : Prop :=
  ∀ s, loadSecretsFromBytes P decrypted = .ok s → s.relyingPartyId ≠ none →
    s.credentialId ≠ [] ∧ s.salt ≠ []

section Fails

variable {P : Platform} (hm : P.Plentiful)
include hm

theorem failsIn_mallocOrExit {n : ℕ} (hn : n ≤ ptrdiffMax) (what : String) :
    FailsIn Halt.IsProper (mallocOrExit P n what) :=
  failsIn_stopIf fun h => absurd ((hm n).mpr hn) (by simp [h])

theorem failsIn_mallocUnlessEmpty {n : ℕ} (hn : n ≤ ptrdiffMax) (what : String) :
    FailsIn Halt.IsProper (mallocUnlessEmpty P n what) := by
  unfold mallocUnlessEmpty
  split
  · exact failsIn_ok _
  · exact failsIn_mallocOrExit hm hn what

theorem failsIn_strdupOrExit {s : CString} (hs : s.length + 1 ≤ ptrdiffMax) (what : String) :
    FailsIn Halt.IsProper (strdupOrExit P s what) :=
  failsIn_bind (failsIn_mallocOrExit hm hs what) fun _ _ => failsIn_ok _

omit hm in
theorem failsIn_dereference {α : Type} (operation : String) (p : Option α) :
    FailsIn Halt.IsProper (dereference operation p) := by
  cases p with
  | none => exact failsIn_error trivial
  | some a => exact failsIn_ok a

/-! ## Decoding the secrets -/

theorem isProper_bytestringField {items : List Cbor.Item} {field : ℕ} {what : String} {wrong : Halt}
    (hi : ∀ i ∈ items, i.payload < ptrdiffMax) (hw : wrong.IsProper) :
    FailsIn Halt.IsProper (bytestringField P items field what wrong) := by
  refine failsIn_bytestringField (failsIn_dereference _ _) (fun d hd => ?_) hw
  have hlength : d.length < ptrdiffMax := hi (.bytes d) hd
  exact failsIn_mallocUnlessEmpty hm hlength.le _

theorem failsIn_deserializeRelyingPartyId {items : List Cbor.Item}
    (hi : ∀ i ∈ items, i.payload < ptrdiffMax) :
    FailsIn Halt.IsProper (deserializeRelyingPartyId P items) := by
  refine failsIn_bind (failsIn_dereference _ _) fun i hget => ?_
  have hmem : i ∈ items := List.mem_of_getElem? (cborArrayGet_eq_ok.mp hget)
  cases i with
  | text d =>
    have hd : d.length < ptrdiffMax := hi (.text d) hmem
    dsimp only
    split
    · exact failsIn_ok _
    · exact failsIn_bind (failsIn_mallocOrExit hm hd _) fun _ _ => failsIn_ok _
  | _ => exact failsIn_error (by simp [wrongFormat, Halt.IsProper])

/-- The second look at the version never differs from the first. -/
theorem failsIn_deserializeSecretsFromCborV1 {items : List Cbor.Item} {v : ℕ}
    (hv : items[0]? = some (.uint .w8 v)) (h1 : UInt8.ofNat v = 1)
    (hi : ∀ i ∈ items, i.payload < ptrdiffMax) :
    FailsIn Halt.IsProper (deserializeSecretsFromCborV1 P items) := by
  have hw : ∀ format field, (wrongFormat format field).IsProper := by
    simp [wrongFormat, Halt.IsProper]
  refine failsIn_bind (failsIn_mallocOrExit hm (by decide) _) fun _ _ => ?_
  refine failsIn_bind (failsIn_stopIf fun _ => by simp [Halt.IsProper]) fun _ _ => ?_
  refine failsIn_bind (failsIn_uintField (failsIn_dereference _ _) (hw _ _)) fun version hversion => ?_
  refine failsIn_bind (failsIn_stopIf fun hne => ?_) fun _ _ => ?_
  · rw [uintField_eq_ok] at hversion
    obtain rfl : v = version := by simpa [encryptedFieldVersion, hv] using hversion
    exact absurd h1 hne
  refine failsIn_bind (failsIn_deserializeRelyingPartyId hm hi) fun _ _ => ?_
  refine failsIn_bind (isProper_bytestringField hm hi (hw _ _)) fun _ _ => ?_
  refine failsIn_bind (isProper_bytestringField hm hi (hw _ _)) fun _ _ => ?_
  exact failsIn_ok _

omit hm in
theorem failsIn_loadArray {data : Bytes} {source : List Argument} {undecodable notArray : String} :
    FailsIn Halt.IsProper (loadArray P data source undecodable notArray) := by
  unfold loadArray
  split
  · exact failsIn_error (by simp [Halt.IsProper])
  · exact failsIn_ok _
  · exact failsIn_error (by simp [Halt.IsProper])

theorem failsIn_loadSecretsFromBytes (hf : P.cbor.FollowsFormat) {decrypted : Bytes}
    (hd : decrypted.length < ptrdiffMax) :
    FailsIn Halt.IsProper (loadSecretsFromBytes P decrypted) := by
  refine failsIn_bind failsIn_loadArray fun items hitems => ?_
  obtain ⟨definite, hl⟩ := loadArray_eq_ok.mp hitems
  obtain ⟨r, hr⟩ := hf.load_sound hl
  have hpayload := (Cbor.decode_spec hr).2
  rw [Cbor.Item.payload] at hpayload
  have hi : ∀ i ∈ items, i.payload < ptrdiffMax := by
    intro i hmem
    have hle := Cbor.payload_le_payloadAll hmem
    omega
  refine failsIn_bind (failsIn_uintField (failsIn_dereference _ _) (by simp [Halt.IsProper])) fun v hv => ?_
  rw [uintField_eq_ok] at hv
  refine failsIn_bind (failsIn_stopIf fun _ => by simp [Halt.IsProper]) fun _ h1 => ?_
  rw [stopIf_eq_ok, not_not] at h1
  exact failsIn_deserializeSecretsFromCborV1 hm hv h1 hi

/-! ## Building the parameters -/

theorem failsIn_allocateParametersExceptRpid {m n : ℕ} (hc : m ≤ ptrdiffMax) (hs : n ≤ ptrdiffMax) :
    FailsIn Halt.IsProper (allocateParametersExceptRpid P m n) := by
  refine failsIn_bind (failsIn_mallocOrExit hm (by decide) _) fun _ _ => ?_
  refine failsIn_bind (failsIn_mallocUnlessEmpty hm hc _) fun _ _ => ?_
  refine failsIn_bind (failsIn_mallocUnlessEmpty hm hs _) fun _ _ => ?_
  refine failsIn_bind (failsIn_mallocOrExit hm (by decide) _) fun _ _ => ?_
  exact failsIn_bind (failsIn_stopIf fun _ => trivial) fun _ _ => failsIn_ok _

theorem failsIn_mixIntoSalt {params : AuthenticatorParameters} (hs : params.salt.length ≤ ptrdiffMax)
    (mixin : Option CString) : FailsIn Halt.IsProper (mixIntoSalt P params mixin) := by
  cases mixin with
  | none => exact failsIn_ok _
  | some m =>
    refine failsIn_bind (failsIn_mallocOrExit hm hs _) fun _ _ => ?_
    split
    · exact failsIn_error (by simp [Halt.IsProper])
    · exact failsIn_ok _

omit hm in
/-- Secrets come from the blob, so they are no longer than it. -/
theorem secrets_length_lt (hf : P.cbor.FollowsFormat) {decrypted : Bytes}
    {s : DeserializedSecrets} (h : loadSecretsFromBytes P decrypted = .ok s)
    (hd : decrypted.length < ptrdiffMax) : s.credentialId.length ≤ ptrdiffMax ∧
      s.salt.length ≤ ptrdiffMax ∧ ∀ r, s.relyingPartyId = some r → r.length + 1 ≤ ptrdiffMax := by
  obtain ⟨definite, v, d, hl, hr⟩ := loadSecretsFromBytes_spec h
  obtain ⟨rest, hdec⟩ := hf.load_sound hl
  have hp := (Cbor.decode_spec hdec).2
  simp only [Cbor.Item.payload, Cbor.payloadAll] at hp
  refine ⟨by omega, by omega, fun r hs => ?_⟩
  split at hr
  · simp [hr] at hs
  · obtain rfl : cString d = r := Option.some.inj (hr.symm.trans hs)
    have hle : (cString d).length ≤ d.length := (List.takeWhile_sublist _).length_le
    omega

theorem failsIn_parametersOfDecrypted (hf : P.cbor.FollowsFormat) {decrypted : Bytes}
    (hd : decrypted.length < ptrdiffMax) (mixin : Option CString) :
    FailsIn Halt.IsProper (parametersOfDecrypted P decrypted mixin) := by
  refine failsIn_bind (failsIn_loadSecretsFromBytes hm hf hd) fun s hs => ?_
  obtain ⟨hc, hk, hr⟩ := secrets_length_lt hf hs hd
  refine failsIn_bind ?_ fun params hparams => ?_
  · refine failsIn_bind (failsIn_allocateParametersExceptRpid hm hc hk) fun _ _ => ?_
    refine failsIn_bind (failsIn_dereference _ _) fun r hrp => ?_
    refine failsIn_bind (failsIn_strdupOrExit hm (hr r ?_) _) fun _ _ => failsIn_ok _
    exact dereference_eq_ok.mp hrp
  · refine failsIn_mixIntoSalt hm ?_ mixin
    rw [(parametersOfSecrets_spec hparams).2.2.1]
    exact hk

omit hm in
/-- Parameters with what an assertion needs come out of usable secrets. -/
theorem usable_of_parametersOfDecrypted {decrypted : Bytes} {mixin : Option CString}
    {params : AuthenticatorParameters} (hu : SecretsUsable P decrypted)
    (h : parametersOfDecrypted P decrypted mixin = .ok params) :
    params.credentialId ≠ [] ∧ params.salt ≠ [] := by
  simp only [parametersOfDecrypted, except_bind_eq_ok] at h
  obtain ⟨s, hs, params₁, hp, hmix⟩ := h
  obtain ⟨hr, hc, hk, -⟩ := parametersOfSecrets_spec hp
  obtain ⟨hcred, hsalt⟩ := hu s hs (by simp [hr])
  cases mixin with
  | none =>
    obtain rfl := Except.ok.inj hmix
    exact ⟨hc ▸ hcred, hk ▸ hsalt⟩
  | some m =>
    simp only [mixIntoSalt, except_bind_eq_ok] at hmix
    obtain ⟨_, -, hmix⟩ := hmix
    split at hmix
    · simp [errx] at hmix
    · next hash _ =>
      obtain rfl := Except.ok.inj hmix
      refine ⟨hc ▸ hcred, fun h0 => hsalt ?_⟩
      have hl := congrArg List.length h0
      rw [← hk]
      exact List.eq_nil_of_length_eq_zero (by simpa using hl)

/-! ## The search stops properly -/

omit hm in
theorem stopsIn_closeAndFree (device : FidoDev) :
    StopsIn Halt.IsProper (closeAndFreeDeviceIgnoringErrors device) :=
  fun w _ _ h => by simp at h

omit hm in
theorem stopsIn_closeAndExit {α : Type} (device : FidoDev) {status : ExitStatus} (format : String)
    (arguments : List Argument) (hs : status ≠ .programmerError ∧ status ≠ .outOfMemory) :
    StopsIn Halt.IsProper (closeAndExit (α := α) device status format arguments) := by
  refine stopsIn_bind (stopsIn_closeAndFree device) fun _ _ _ _ => stopsIn_lift (failsIn_error ?_)
  exact hs

omit hm in
theorem stopsIn_requireOk (device : FidoDev) (r : ℤ) (format : String) :
    StopsIn Halt.IsProper (requireOk device r format) :=
  stopsIn_ite (fun _ => stopsIn_pure _) fun _ => stopsIn_closeAndExit _ _ _ (by simp)

theorem stopsIn_pinForGeneration {a : Authenticator} (ha : a.Affordable) (slot : ℕ)
    (invocation : InvocationState) (params : AuthenticatorParameters) :
    StopsIn Halt.IsProper (pinForGeneration P ⟨slot, a⟩ invocation params) := by
  refine stopsIn_ite (fun _ => ?_) fun _ => stopsIn_pure _
  refine stopsIn_bind (stopsIn_lift (failsIn_mallocOrExit hm (by decide) _)) fun _ _ _ _ => ?_
  refine stopsIn_bind (stopsIn_lift (failsIn_mallocOrExit hm ha.prompt _)) fun _ _ _ _ => ?_
  refine stopsIn_bind ?_ fun _ _ _ _ => stopsIn_pure _
  unfold authenticatorPin
  split
  · exact stopsIn_promptForSecret (by simp [unableToGet, Halt.IsProper]) _
  · exact stopsIn_pure _

theorem stopsIn_getSecret {a : Authenticator} (ha : a.Affordable) (slot : ℕ)
    {params : AuthenticatorParameters} (hc : params.credentialId ≠ []) (hs : params.salt ≠ []) :
    StopsIn Halt.IsProper (getSecretFromAuthenticatorParams P ⟨slot, a⟩ params) := by
  refine stopsIn_ite (fun h => absurd h hc) fun _ => stopsIn_ite (fun h => absurd h hs) fun _ => ?_
  refine stopsIn_ite (fun h =>
    absurd (h.symm.trans ha.fidoAssertNew) Bool.false_ne_true) fun _ => ?_
  iterate 6 refine stopsIn_bind (stopsIn_requireOk _ _ _) fun _ _ _ _ => ?_
  refine stopsIn_bind (stopsIn_modify _) fun _ _ _ _ => ?_
  refine stopsIn_ite (fun _ => ?_) fun _ => ?_
  · exact stopsIn_ite (fun _ => stopsIn_pure _) fun _ => stopsIn_closeAndExit _ _ _ (by simp)
  · refine stopsIn_ite (fun _ => stopsIn_closeAndExit _ _ _ (by simp)) fun _ => ?_
    refine stopsIn_bind (stopsIn_lift (failsIn_mallocOrExit hm (ha.secret _) _)) fun _ _ _ _ => ?_
    exact stopsIn_pure _

theorem stopsIn_tryDevice {a : Authenticator} (ha : a.Affordable) {c : DeserializedCleartext}
    (haaguid : c.deviceAaguid.length ≤ ptrdiffMax) (slot : ℕ) (invocation : InvocationState)
    {params : AuthenticatorParameters} (hc : params.credentialId ≠ []) (hs : params.salt ≠ []) :
    StopsIn Halt.IsProper (tryDevice P invocation c ⟨slot, a⟩ params) := by
  have hopen : StopsIn Halt.IsProper (getDevice ⟨slot, a⟩) := by
    refine stopsIn_bind ?_ fun _ _ _ _ => stopsIn_lift (failsIn_stopIf fun _ => by
      simp [Halt.IsProper])
    refine stopsIn_bind (stopsIn_lift (failsIn_stopIf fun h =>
      absurd (h.symm.trans ha.fidoDevNew) Bool.false_ne_true)) fun _ _ _ _ => ?_
    refine stopsIn_bind (stopsIn_lift (failsIn_stopIf fun _ => by simp [Halt.IsProper]))
      fun _ _ _ _ => stopsIn_modify _
  have hinfo : StopsIn Halt.IsProper (getDeviceInfo ⟨slot, a⟩) := by
    refine stopsIn_bind (stopsIn_lift (failsIn_stopIf fun h =>
      absurd (h.symm.trans ha.fidoCborInfoNew) Bool.false_ne_true)) fun _ _ _ _ => ?_
    exact stopsIn_bind (stopsIn_lift (failsIn_stopIf fun _ => by simp [Halt.IsProper]))
      fun _ _ _ _ => stopsIn_pure _
  refine stopsIn_bind hopen fun _ _ _ _ => stopsIn_bind hinfo fun info _ _ _ => ?_
  refine stopsIn_bind (stopsIn_lift ?_) fun matched _ _ _ => ?_
  · unfold deviceAaguidMatches
    split
    · exact failsIn_ok _
    · split
      · exact failsIn_ok _
      · exact failsIn_bind (failsIn_mallocOrExit hm haaguid _) fun _ _ => failsIn_ok _
  refine stopsIn_ite (fun _ => stopsIn_pure _) fun _ => stopsIn_ite (fun _ => ?_) fun _ => ?_
  · exact stopsIn_bind (stopsIn_closeAndFree _) fun _ _ _ _ => stopsIn_pure _
  refine stopsIn_bind (stopsIn_pinForGeneration hm ha slot invocation params)
    fun params' w w' hpin => ?_
  have hp := pinForGeneration_spec hpin
  refine stopsIn_ite (fun _ => ?_) fun _ => ?_
  · refine stopsIn_bind (stopsIn_modify _) fun _ _ _ _ => ?_
    exact stopsIn_bind (stopsIn_closeAndFree _) fun _ _ _ _ => stopsIn_pure _
  · refine stopsIn_bind (stopsIn_lift (failsIn_mallocOrExit hm (by decide) _)) fun _ _ _ _ => ?_
    refine stopsIn_bind (stopsIn_getSecret hm ha slot (hp ▸ hc) (hp ▸ hs)) fun r _ _ _ => ?_
    refine stopsIn_bind (stopsIn_closeAndFree _) fun _ _ _ _ => stopsIn_ite (fun _ => ?_) fun _ => ?_
    · exact stopsIn_bind (stopsIn_modify _) fun _ _ _ _ => stopsIn_pure _
    · refine stopsIn_bind ?_ fun _ _ _ _ => stopsIn_pure _
      refine stopsIn_ite (fun _ => stopsIn_pure _) fun _ => ?_
      exact stopsIn_ite (fun _ => stopsIn_modify _) fun _ => stopsIn_modify _

/-- A search with usable parameters stops properly, whatever the devices answer. -/
theorem stopsIn_searchDevices {c : DeserializedCleartext}
    (haaguid : c.deviceAaguid.length ≤ ptrdiffMax) (invocation : InvocationState)
    {devices : List Authenticator} (hd : ∀ a ∈ devices, a.Affordable) (slot : ℕ)
    {params : AuthenticatorParameters} (hc : params.credentialId ≠ []) (hs : params.salt ≠ []) :
    StopsIn Halt.IsProper (searchDevices P invocation c slot devices params) := by
  induction devices generalizing slot params with
  | nil => exact stopsIn_pure _
  | cons a devices ih =>
    refine stopsIn_bind (stopsIn_tryDevice hm (hd a List.mem_cons_self) haaguid slot invocation hc
      hs) fun r w w' hturn => ?_
    cases r with
    | none => exact stopsIn_pure _
    | some params' =>
      have hp := tryDevice_params hturn
      exact ih (fun x hx => hd x (List.mem_cons_of_mem a hx)) (slot + 1) (hp ▸ hc) (hp ▸ hs)

end Fails

end Khefin
