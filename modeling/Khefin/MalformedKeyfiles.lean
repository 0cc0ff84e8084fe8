import Khefin.KeyfileTampering
import Khefin.ProperStops
import Khefin.SearchRuns

/-! # Keyfiles with fields of the wrong size

A file that loads is handed to the cryptography with fields of whatever size it has.
The sizes that the cryptography needs are looked at in part, with the statuses of a
defect or of a lack of memory. -/

namespace Khefin
open CLibrary ExitingPrograms

/-! ## What a keyfile must not bring about -/

/-- The cryptography is given buffers of the sizes it reads. -/
def Event.IsWellSized : Event → Prop
  | .cryptoPwhash salt => salt.length = cryptoPwhashSaltbytes
  | .cryptoSecretboxOpenEasy nonce n =>
    nonce.length = cryptoSecretboxNoncebytes ∧ cryptoSecretboxMacbytes ≤ n
  | _ => True

structure DeserializedCleartext.WellSized (c : DeserializedCleartext) : Prop where
  kdfSalt : c.kdfSalt.length = cryptoPwhashSaltbytes
  nonce : c.nonce.length = cryptoSecretboxNoncebytes
  encryptedData : cryptoSecretboxMacbytes ≤ c.encryptedData.length

theorem DeserializedCleartext.WellSized.nonce_ne_nil {c : DeserializedCleartext}
    (h : c.WellSized) : c.nonce ≠ [] := by
  intro hn
  have hlen := h.nonce
  simp [hn, cryptoSecretboxNoncebytes] at hlen

/-- What is required of one run on a file with these fields. -/
structure Rejecting (c : DeserializedCleartext) (w : World)
    (r : EStateM.Result Halt World ExitStatus) : Prop where
  sizes : Traces Event.IsWellSized w (finalState r)
  malformed : ¬c.WellSized → ∃ m w', r = .error (.exit .deserializationError m) w'
  proper : ∀ h w', r = .error h w' → h.IsProper

/-- Every run on the file, with any mixin, PIN and devices, is as required. -/
def RejectsMalformed (P : Platform) (passphrase : CString) (data : Bytes)
    (c : DeserializedCleartext) : Prop :=
  ∀ invocation w devices, Opening P invocation w passphrase data →
    (∀ a ∈ devices, a.Affordable) →
    Rejecting c w (printSecretConsumingInvocation P invocation devices w)

/-! ## The whole command -/

theorem sizes_searchDevices (P : Platform) (invocation : InvocationState)
    (c : DeserializedCleartext) (devices : List Authenticator) (params : AuthenticatorParameters) :
    Keeps (Traces Event.IsWellSized) (searchDevices P invocation c 0 devices params) := by
  have hidle : ∀ e, Event.IsIdle e → Event.IsWellSized e := fun e he => by cases e <;> trivial
  have hframes : Frames (Traces Event.IsWellSized) :=
    ⟨fun _ _ hw => hw.2.2.mono hidle, fun w output => traces_printf output w⟩
  exact keeps_searchDevices hframes (fun _ _ => traces_record trivial) P invocation c devices params

theorem sizes_afterBox {c : DeserializedCleartext} {w : World} :
    Traces Event.IsWellSized w (Opening.afterBox c w) ↔ c.WellSized := by
  constructor
  · rintro ⟨events, ht, he⟩
    obtain rfl : [.cryptoPwhash c.kdfSalt,
        .cryptoSecretboxOpenEasy c.nonce c.encryptedData.length] = events := by
      simpa [Opening.afterBox] using ht
    obtain ⟨hs, hn, hl⟩ : Event.IsWellSized (.cryptoPwhash c.kdfSalt) ∧
        Event.IsWellSized (.cryptoSecretboxOpenEasy c.nonce c.encryptedData.length) := by
      simpa using he
    exact ⟨hs, hn, hl⟩
  · intro h
    refine ⟨[.cryptoPwhash c.kdfSalt, .cryptoSecretboxOpenEasy c.nonce c.encryptedData.length],
      by simp [Opening.afterBox], ?_⟩
    simp [Event.IsWellSized, h.kdfSalt, h.nonce, h.encryptedData]

theorem Rejecting.of_error {c : DeserializedCleartext} {w w' : World} {h : Halt}
    {r : EStateM.Result Halt World ExitStatus} (hr : r = .error h w') (hw : c.WellSized)
    (ht : Traces Event.IsWellSized w w') (hp : h.IsProper) : Rejecting c w r := by
  subst hr
  refine ⟨ht, fun hn => absurd hw hn, fun e w'' he => ?_⟩
  rw [← (EStateM.Result.error.inj he).1]
  exact hp

section Command

variable {P : Platform} {passphrase : CString} {path : CString} {data : Bytes}
  {c : DeserializedCleartext} {invocation : InvocationState} {w : World}

/-- Once the keyfile is open, the rest of a run is the search. -/
theorem rejecting_of_open (hm : P.Plentiful) (hc : c.WellSized)
    (haaguid : c.deviceAaguid.length ≤ ptrdiffMax) {params : AuthenticatorParameters}
    (hopen : openKeyfile P invocation w = .ok (c, params) (Opening.afterBox c w))
    (hcred : params.credentialId ≠ []) (hsalt : params.salt ≠ []) {devices : List Authenticator}
    (hd : ∀ a ∈ devices, a.Affordable) :
    Rejecting c w (printSecretConsumingInvocation P invocation devices w) := by
  have hsizes : Traces Event.IsWellSized w (Opening.afterBox c w) := sizes_afterBox.mpr hc
  have hkeep := sizes_searchDevices P invocation c devices params (Opening.afterBox c w)
  have hstop := stopsIn_searchDevices hm haaguid invocation hd 0 hcred hsalt
  cases hs : searchDevices P invocation c 0 devices params (Opening.afterBox c w) with
  | error h w' =>
    rw [hs] at hkeep
    exact .of_error (printSecret_of_search_error hopen hs) hc
      (trans_of (Traces Event.IsWellSized) hsizes hkeep) (hstop _ _ _ hs)
  | ok found w' =>
    rw [hs] at hkeep
    rw [printSecret_of_search_ok hopen hs]
    exact ⟨trans_of (Traces Event.IsWellSized) hsizes hkeep, fun hn => absurd hc hn,
      fun e w'' he => by simp at he⟩

/-- Parameters without a credential id or a salt stop the run at the first device. -/
theorem stopped_of_unusable (hm : P.Plentiful) (haaguid : c.deviceAaguid.length ≤ ptrdiffMax)
    {params : AuthenticatorParameters} {w₁ : World}
    (hopen : openKeyfile P invocation w = .ok (c, params) w₁)
    (hu : ¬(params.credentialId ≠ [] ∧ params.salt ≠ [])) :
    ∃ m w', printSecretConsumingInvocation P invocation [eagerDevice c] w =
      .error (.exit .programmerError m) w' := by
  have hresp : (eagerDevice c).Responds := ⟨rfl, rfl, rfl, fun _ => rfl⟩
  have hturn : tryDevice P invocation c ⟨0, eagerDevice c⟩ params w₁ = _ :=
    tryDevice_of_candidate hresp rfl ((hm _).mpr haaguid) (Or.inr rfl) (eagerDevice_supports c)
  have hask : ∃ m w', getSecretFromAuthenticatorParams P ⟨0, eagerDevice c⟩ params
      (w₁.record (.fidoDevOpen 0)) = .error (.exit .programmerError m) w' := by
    unfold getSecretFromAuthenticatorParams
    by_cases hc : params.credentialId = []
    · rw [if_pos hc]
      exact ⟨_, closeAndExit_run _ _ _ _ _⟩
    · have hs : params.salt = [] := by simpa [hc] using hu
      rw [if_neg hc, if_pos hs]
      exact ⟨_, closeAndExit_run _ _ _ _ _⟩
  obtain ⟨m, w', hask⟩ := hask
  refine ⟨m, w', ?_⟩
  have hstruct : P.malloc sizeofSecret = true := (hm _).mpr (by decide)
  have hask' : askDevice P ⟨0, eagerDevice c⟩ params (w₁.record (.fidoDevOpen 0)) = _ :=
    (bind_of_ok (lift_eq_ok.mpr ⟨mallocOrExit_of hstruct _, rfl⟩) _).trans (bind_of_error hask _)
  rw [tryCandidate_of_no_pin rfl, hask'] at hturn
  have hrun : printSecretConsumingInvocation P invocation [eagerDevice c] w = _ :=
    bind_of_ok hopen _
  exact hrun.trans (bind_of_error (bind_of_error hturn _) _)

/-- A run without devices leaves the trace of the opening. -/
theorem trace_without_devices (P : Platform) (invocation : InvocationState) (w : World) :
    finalState (printSecretConsumingInvocation P invocation [] w) =
      finalState (openKeyfile P invocation w) := by
  cases ho : openKeyfile P invocation w with
  | error h w' => rw [printSecret_of_error ho, finalState_error, finalState_error]
  | ok r w' =>
    have hrun : printSecretConsumingInvocation P invocation [] w = _ := bind_of_ok ho _
    rw [hrun]
    rfl

/-- The box is tried with whatever nonce there is. -/
theorem finalState_openKeyfile (h : Opening P invocation w passphrase data)
    (hf : P.cbor.FollowsFormat) (hc : loadCleartext P { path, data } = .ok c)
    (hl : data.length ≤ largestValidPayloadSizeBytes)
    (hs : c.kdfSalt.length = cryptoPwhashSaltbytes) {key : Bytes}
    (hk : P.sodium.cryptoPwhash (c.pwhashInput passphrase) = some key)
    (he : cryptoSecretboxMacbytes ≤ c.encryptedData.length)
    (hm : P.malloc (sizeSub c.encryptedData.length cryptoSecretboxMacbytes) = true) :
    finalState (openKeyfile P invocation w) = Opening.afterBox c w := by
  by_cases hn : c.nonce = []
  · have hbox := openEncryptedData_of_null key (w.record (.cryptoPwhash c.kdfSalt)) hm hn he
    have hrun := (h.openKeyfile_of_key hf hc hl hs hk).trans (bind_of_error (bind_of_error hbox _) _)
    rw [hrun]
    rfl
  · cases ho : P.sodium.cryptoSecretboxOpenEasy c.encryptedData (nonceRead P c.nonce) key with
    | none =>
      obtain ⟨m, hrun⟩ := h.openKeyfile_of_not_open hf hc hl hs hk hm hn ho
      rw [hrun]
      rfl
    | some decrypted =>
      rw [h.openKeyfile_of_open hf hc hl hs hk hm hn ho]
      split <;> rfl

/-- A file that may be loaded and meets the condition is handled as required. -/
theorem rejecting_of_usable (hf : P.cbor.FollowsFormat) (hbox : P.sodium.Boxes)
    (hm : P.Plentiful) (h : Opening P invocation w passphrase data)
    (hload : loadCleartext P { path, data } = .ok c)
    (hl : data.length ≤ largestValidPayloadSizeBytes) (hc : c.WellSized) {key : Bytes}
    (hk : P.sodium.cryptoPwhash (c.pwhashInput passphrase) = some key)
    (hu : ∀ m, P.sodium.cryptoSecretboxOpenEasy c.encryptedData (nonceRead P c.nonce) key = some m →
      SecretsUsable P m) {devices : List Authenticator} (hd : ∀ a ∈ devices, a.Affordable) :
    Rejecting c w (printSecretConsumingInvocation P invocation devices w) := by
  have hsizes : Traces Event.IsWellSized w (Opening.afterBox c w) := sizes_afterBox.mpr hc
  have hfield : ∀ b ∈ c.byteStrings, b.length ≤ largestValidPayloadSizeBytes :=
    fun b hb => (length_byteStrings_le hf hload hb).trans hl
  have hmalloc := malloc_decrypted h.memory hc.encryptedData
    (hfield _ (by simp [DeserializedCleartext.byteStrings]))
  have hn := hc.nonce_ne_nil
  cases ho : P.sodium.cryptoSecretboxOpenEasy c.encryptedData (nonceRead P c.nonce) key with
  | none =>
    obtain ⟨m, hopen⟩ := h.openKeyfile_of_not_open hf hload hl hc.kdfSalt hk hmalloc hn ho
    exact .of_error (printSecret_of_error hopen devices) hc hsizes (by simp [Halt.IsProper])
  | some decrypted =>
    have hopen := h.openKeyfile_of_open hf hload hl hc.kdfSalt hk hmalloc hn ho
    have hdec : decrypted.length < ptrdiffMax := by
      have hlen := hbox.open_length ho
      have hle := hfield c.encryptedData (by simp [DeserializedCleartext.byteStrings])
      have hbound := largestValidPayloadSizeBytes_lt
      omega
    cases hp : parametersOfDecrypted P decrypted invocation.mixin with
    | error e =>
      rw [hp] at hopen
      exact .of_error (printSecret_of_error hopen devices) hc hsizes
        (failsIn_parametersOfDecrypted hm hf hdec invocation.mixin e hp)
    | ok params =>
      rw [hp] at hopen
      obtain ⟨hcred, hsalt⟩ := usable_of_parametersOfDecrypted (hu decrypted ho) hp
      refine rejecting_of_open hm hc ?_ hopen hcred hsalt hd
      exact (hfield _ (by simp [DeserializedCleartext.byteStrings])).trans (by decide)

theorem affordable_eagerDevice (c : DeserializedCleartext) : (eagerDevice c).Affordable where
  fidoDevNew := rfl
  fidoCborInfoNew := rfl
  fidoAssertNew := rfl
  prompt := (by decide : (literal promptFormatString).length +
    referenceDevice.productString.length + referenceDevice.path.length + 1 ≤ ptrdiffMax)
  secret _ := (by decide : [0x5e, 0xc3].length ≤ ptrdiffMax)

/-- A run that stops with a status of the program's own making is not as required. -/
theorem not_rejecting_of_error {w' : World} {status : ExitStatus} {m : Message}
    {devices : List Authenticator}
    (hr : printSecretConsumingInvocation P invocation devices w = .error (.exit status m) w')
    (hs : status = .programmerError ∨ status = .outOfMemory) :
    ¬Rejecting c w (printSecretConsumingInvocation P invocation devices w) := by
  intro h
  obtain ⟨h₁, h₂⟩ := h.proper _ _ hr
  rcases hs with rfl | rfl
  · exact h₁ rfl
  · exact h₂ rfl

end Command

/-! ## What a file that is handled as required looks like -/

section Necessary

variable {P : Platform} {passphrase : CString} {path : CString} {data : Bytes}
  {c : DeserializedCleartext} {invocation : InvocationState} {w : World}
  (hrejects : RejectsMalformed P passphrase data c) (h : Opening P invocation w passphrase data)
  (hf : P.cbor.FollowsFormat) (hload : loadCleartext P { path, data } = .ok c)
  (hl : data.length ≤ largestValidPayloadSizeBytes)

theorem field_length_le (hf : P.cbor.FollowsFormat)
    (hload : loadCleartext P { path, data } = .ok c)
    (hl : data.length ≤ largestValidPayloadSizeBytes) {b : Bytes} (hb : b ∈ c.byteStrings) :
    b.length ≤ largestValidPayloadSizeBytes := (length_byteStrings_le hf hload hb).trans hl

include hrejects h hf hload hl

/-- Otherwise the salt would be reported as a defect of the program. -/
theorem RejectsMalformed.kdfSalt_length : c.kdfSalt.length = cryptoPwhashSaltbytes := by
  by_contra hs
  obtain ⟨m, hopen⟩ := h.openKeyfile_of_salt hf hload hl hs
  have hstop := printSecret_of_error hopen []
  exact not_rejecting_of_error hstop (Or.inl rfl) (hrejects _ _ [] h (by simp))

/-- Otherwise the refusal would be reported as a lack of memory. -/
theorem RejectsMalformed.exists_key :
    ∃ key, P.sodium.cryptoPwhash (c.pwhashInput passphrase) = some key := by
  cases hk : P.sodium.cryptoPwhash (c.pwhashInput passphrase) with
  | some key => exact ⟨key, rfl⟩
  | none =>
    obtain ⟨m, hopen⟩ :=
      h.openKeyfile_of_no_key hf hload hl (hrejects.kdfSalt_length h hf hload hl) hk
    have hstop := printSecret_of_error hopen []
    exact absurd (hrejects _ _ [] h (by simp)) (not_rejecting_of_error hstop (Or.inr rfl))

/-- Otherwise the wrapped size would be reported as a lack of memory. -/
theorem RejectsMalformed.macbytes_le (hm : P.Plentiful) :
    cryptoSecretboxMacbytes ≤ c.encryptedData.length := by
  by_contra hlt
  obtain ⟨key, hk⟩ := hrejects.exists_key h hf hload hl
  have hwrap : P.malloc (sizeSub c.encryptedData.length cryptoSecretboxMacbytes) = false := by
    rw [Bool.eq_false_iff, ne_eq, hm, not_le]
    exact ptrdiffMax_lt_sizeSub (not_le.mp hlt) (by decide)
  obtain ⟨m, hbox⟩ :=
    openEncryptedData_of_malloc key (w.record (.cryptoPwhash c.kdfSalt)) hwrap
  have hopen := (h.openKeyfile_of_key hf hload hl (hrejects.kdfSalt_length h hf hload hl) hk).trans
    (bind_of_error (bind_of_error hbox _) _)
  have hstop := printSecret_of_error hopen []
  exact not_rejecting_of_error hstop (Or.inr rfl) (hrejects _ _ [] h (by simp))

/-- The run without devices shows the sizes that the cryptography was given. -/
theorem RejectsMalformed.wellSized (hm : P.Plentiful) : c.WellSized := by
  obtain ⟨key, hk⟩ := hrejects.exists_key h hf hload hl
  have hsalt := hrejects.kdfSalt_length h hf hload hl
  have henc := hrejects.macbytes_le h hf hload hl hm
  have hmalloc := malloc_decrypted h.memory henc
    (field_length_le hf hload hl (by simp [DeserializedCleartext.byteStrings]))
  have hsizes := (hrejects invocation w [] h (by simp)).sizes
  rw [trace_without_devices, finalState_openKeyfile h hf hload hl hsalt hk henc hmalloc,
    sizes_afterBox] at hsizes
  exact hsizes

/-- Otherwise the first device would be reported as a defect of the program. -/
theorem RejectsMalformed.secretsUsable (hbox : P.sodium.Boxes) (hm : P.Plentiful)
    (hmixin : invocation.mixin = none) {key decrypted : Bytes}
    (hk : P.sodium.cryptoPwhash (c.pwhashInput passphrase) = some key)
    (ho : P.sodium.cryptoSecretboxOpenEasy c.encryptedData (nonceRead P c.nonce) key =
      some decrypted) : SecretsUsable P decrypted := by
  intro s hs hr
  by_contra hu
  have hc := hrejects.wellSized h hf hload hl hm
  have hfield : ∀ b ∈ c.byteStrings, b.length ≤ largestValidPayloadSizeBytes :=
    fun _ hb => field_length_le hf hload hl hb
  have hbound := largestValidPayloadSizeBytes_lt
  have hmalloc := malloc_decrypted h.memory hc.encryptedData
    (hfield _ (by simp [DeserializedCleartext.byteStrings]))
  have hdec : decrypted.length < ptrdiffMax := by
    have hlen := hbox.open_length ho
    have hle := hfield c.encryptedData (by simp [DeserializedCleartext.byteStrings])
    omega
  obtain ⟨r, hr⟩ := Option.ne_none_iff_exists'.mp hr
  obtain ⟨hcl, hsl, hrl⟩ := secrets_length_lt hf hs hdec
  obtain ⟨params, hp⟩ := parametersOfSecrets_of (fun n => (hm n).mpr) (by decide) hr
    (hrl r hr) hcl hsl
  obtain ⟨-, hpc, hps, -⟩ := parametersOfSecrets_spec hp
  have hopen := h.openKeyfile_of_open hf hload hl hc.kdfSalt hk hmalloc hc.nonce_ne_nil ho
  have hparams : parametersOfDecrypted P decrypted invocation.mixin = .ok params := by
    simp [parametersOfDecrypted, hs, hp, mixIntoSalt, hmixin]
  rw [hparams] at hopen
  have haaguid : c.deviceAaguid.length ≤ ptrdiffMax :=
    (hfield _ (by simp [DeserializedCleartext.byteStrings])).trans hbound.le
  obtain ⟨m, w', hrun⟩ := stopped_of_unusable hm haaguid hopen (by rwa [hpc, hps])
  refine not_rejecting_of_error hrun (Or.inl rfl) (hrejects _ _ [eagerDevice c] h ?_)
  intro a ha
  rw [List.mem_singleton.mp ha]
  exact affordable_eagerDevice c

end Necessary

/-- A file that loads is handled as required exactly when it is too big to be read, or its fields
have the sizes needed, the KDF accepts its parameters, and the box, if it opens, does not
hold secrets without a credential id or a salt. -/
theorem rejectsMalformed_iff {P : Platform} (hf : P.cbor.FollowsFormat) (hbox : P.sodium.Boxes)
    (hreading : P.reading = .faithful) (hm : P.Plentiful) {passphrase : CString}
    (hpassphrase : passphrase.length < ptrdiffMax) {path : CString} {data : Bytes}
    {c : DeserializedCleartext} (hload : loadCleartext P { path, data } = .ok c) :
    RejectsMalformed P passphrase data c ↔
      largestValidPayloadSizeBytes < data.length ∨
        (c.WellSized ∧ ∃ key, P.sodium.cryptoPwhash (c.pwhashInput passphrase) = some key ∧
          ∀ m, P.sodium.cryptoSecretboxOpenEasy c.encryptedData (nonceRead P c.nonce) key =
            some m → SecretsUsable P m) := by
  constructor
  · intro hrejects
    by_cases hl : largestValidPayloadSizeBytes < data.length
    · exact Or.inl hl
    rw [not_lt] at hl
    have hopening : Opening P (referenceOpening passphrase) (storedWorld data) passphrase data :=
      ⟨rfl, ⟨literal "keyfile", rfl, rfl, (hm _).mpr (by decide)⟩, hreading,
        fun n hn => (hm n).mpr (hn.trans largestValidPayloadSizeBytes_lt.le), (hm _).mpr hpassphrase⟩
    obtain ⟨key, hk⟩ := hrejects.exists_key hopening hf hload hl
    refine Or.inr ⟨hrejects.wellSized hopening hf hload hl hm, key, hk, fun decrypted ho => ?_⟩
    exact hrejects.secretsUsable hopening hf hload hl hbox hm rfl hk ho
  · rintro h invocation w devices hopening hd
    by_cases hl : largestValidPayloadSizeBytes < data.length
    · obtain ⟨m, hopen⟩ := hopening.openKeyfile_of_too_big hl
      rw [printSecret_of_error hopen devices]
      exact ⟨refl_of (Traces Event.IsWellSized) w, fun _ => ⟨_, _, rfl⟩, fun e w' he => by
        rw [← (EStateM.Result.error.inj he).1]
        simp [Halt.IsProper]⟩
    · obtain ⟨hc, key, hk, hu⟩ := h.resolve_left hl
      exact rejecting_of_usable hf hbox hm hopening hload (not_lt.mp hl) hc hk hu hd

theorem plentiful_reference (device : Authenticator) : (referenceHost device).Plentiful :=
  fun _ => decide_eq_true_iff

/-- The box of an enrolled keyfile holds a credential id and a salt. -/
theorem secretsUsable_reference : SecretsUsable (referenceHost referenceDevice) referenceBox.message := by
  intro s hs _
  have hload : loadSecretsFromBytes (referenceHost referenceDevice) referenceBox.message = .ok _ :=
    loadSecretsFromBytes_encode referenceCbor_followsFormat (by decide)
      (by simp only [IsAscii]; decide +kernel) (referencePlatform_allocates _ _) (by decide)
      (by decide) (by decide +kernel)
  obtain rfl := Except.ok.inj (hload.symm.trans hs)
  exact ⟨by decide, by decide⟩

theorem rejectsMalformed_referenceKeyfile :
    RejectsMalformed (referenceHost referenceDevice) (literal "correct horse")
      (contentOf referenceKeyfile) referenceKeyfile := by
  have hload := loads_reference (c := referenceKeyfile) ⟨rfl, by decide, by decide⟩
    (by decide +kernel)
  refine (rejectsMalformed_iff referenceCbor_followsFormat referenceBox.boxes rfl
    (plentiful_reference _) (by decide) hload).mpr (Or.inr ⟨?_, ?_⟩)
  · exact ⟨by rfl, by rfl, by decide +kernel⟩
  · refine ⟨(literal "correct horse").bytes, referenceBox.pwhash_self _, fun m hm => ?_⟩
    rw [← referenceBox.message_of_open hm]
    exact secretsUsable_reference

/-- The enrolled keyfile with a salt that is one byte short. -/
def shortSaltKeyfile : DeserializedCleartext :=
  { referenceKeyfile with kdfSalt := referenceKeyfile.kdfSalt.take 15 }

/-- The file loads, and the run says that the program is at fault. -/
theorem not_rejectsMalformed_shortSalt :
    loadCleartext (referenceHost referenceDevice)
      { path := literal "keyfile", data := contentOf shortSaltKeyfile } = .ok shortSaltKeyfile ∧
    (∃ m w', printSecretConsumingInvocation (referenceHost referenceDevice)
      (referenceOpening (literal "correct horse")) [] (storedWorld (contentOf shortSaltKeyfile)) =
        .error (.exit .programmerError m) w') ∧
    ¬RejectsMalformed (referenceHost referenceDevice) (literal "correct horse")
      (contentOf shortSaltKeyfile) shortSaltKeyfile := by
  have hload := loads_reference (c := shortSaltKeyfile) ⟨rfl, by decide, by decide⟩
    (by decide +kernel)
  have hopening := opening_reference referenceDevice (contentOf shortSaltKeyfile)
    (by decide : (literal "correct horse").length < ptrdiffMax)
  obtain ⟨m, hopen⟩ := hopening.openKeyfile_of_salt referenceCbor_followsFormat hload
    (by decide +kernel) (by decide)
  have hrun := printSecret_of_error hopen []
  refine ⟨hload, ⟨m, _, hrun⟩, fun hrejects => ?_⟩
  exact not_rejecting_of_error hrun (Or.inl rfl) (hrejects _ _ [] hopening (by simp))

end Khefin
