import Khefin.DeviceSearch
import Khefin.KeyfileStorage
import Khefin.SecretBuffers

/-! # Buffers given up unwiped

What happens to the buffers of an enrolment is one list of events, and what happens to
those of a generation is one list for its opening and one for each turn. -/

namespace Khefin.OnHeap
open CLibrary ExitingPrograms RecordingPrograms MemoryTraces Histories

/-! ## Enrolment -/

def pinEvents (pin : Option CString) : List SecretEvent :=
  pin.elim [] fun s => filled .authenticatorPin (longestValidPin + 1) s.length

def releaseEvents (b : SecretBuffer) (content : Option CString) : List SecretEvent :=
  content.elim [] fun s => [.wipe b s.length, .free b]

def wipeEvents (b : SecretBuffer) (content : Option CString) : List SecretEvent :=
  content.elim [] fun s => [.wipe b s.length]

/-- The events between the two calls that make and free a key specification. -/
def sealingEvents (size : ℕ) : List SecretEvent :=
  filled .serializedUnencryptedSecrets size size ++ filled .keyBytes keySize keySize ++
    [.free .keyBytes, .wipe .serializedUnencryptedSecrets size, .free .serializedUnencryptedSecrets]

def enrolmentEvents (pin : Option CString) (passphrase : CString) (size : ℕ)
    (invocationPin : Option CString) : List SecretEvent :=
  pinEvents pin ++ filled .keySpecPassphrase (passphrase.length + 1) passphrase.length ++
    sealingEvents size ++ releaseEvents .keySpecPassphrase (some passphrase) ++
    releaseEvents .authenticatorPin pin ++ wipeEvents .invocationPassphrase (some passphrase) ++
    wipeEvents .invocationPin invocationPin ++ releaseEvents .invocationPassphrase (some (literal ""))

section Events

variable {P : Platform} {invocation : InvocationState} {s s' : Recorded World SecretEvent}

theorem freeParameters_eq (params : AuthenticatorParameters) :
    freeParameters params = emit (releaseEvents .authenticatorPin params.authenticatorPin) := by
  unfold freeParameters
  cases params.authenticatorPin with
  | none => funext s; simp [releaseEvents]
  | some pin => rfl

theorem freeInvocation_eq (invocation : InvocationState) :
    freeInvocation invocation =
      emit (releaseEvents .invocationPassphrase invocation.passphrase) := by
  unfold freeInvocation
  cases invocation.passphrase with
  | none => funext s; simp [releaseEvents]
  | some passphrase => rfl

theorem deriveKey_events {keySpec : KeySpec} {key : Bytes}
    (h : deriveKey P keySpec s = .ok key s') :
    s'.events = s.events ++ filled .keyBytes keySize keySize := by
  simp only [deriveKey, bind_eq_ok, plain_eq_ok, emit_eq_ok] at h
  obtain ⟨_, s₁, ⟨-, he⟩, _, s₂, rfl, h⟩ := h
  obtain ⟨-, rfl⟩ := EStateM.Result.ok.inj h
  exact congrArg (· ++ _) he

theorem authenticatorPin_events {device : FidoDev} {description pin : CString}
    (h : authenticatorPin P device invocation description s = .ok pin s') :
    s'.events = s.events ++ [.write .authenticatorPin pin.length] := by
  simp only [authenticatorPin, bind_eq_ok, plain_eq_ok, emit_eq_ok] at h
  obtain ⟨_, s₁, ⟨-, he⟩, _, s₂, rfl, h⟩ := h
  obtain ⟨rfl, rfl⟩ := EStateM.Result.ok.inj h
  exact congrArg (· ++ _) he

theorem pinForEnrolment_events {device : FidoDev} {params params' : AuthenticatorParameters}
    (hnone : params.authenticatorPin = none)
    (h : pinForEnrolment P device invocation params s = .ok params' s') :
    s'.events = s.events ++ pinEvents params'.authenticatorPin := by
  unfold pinForEnrolment at h
  split at h
  · simp only [bind_eq_ok, plain_eq_ok, emit_eq_ok] at h
    obtain ⟨_, s₁, ⟨-, h₁⟩, _, s₂, rfl, pin, s₃, hpin, _, s₄, ⟨-, h₄⟩, h⟩ := h
    obtain ⟨rfl, rfl⟩ := EStateM.Result.ok.inj h
    rw [h₄, authenticatorPin_events hpin, h₁, List.append_assoc]
    rfl
  · obtain ⟨rfl, rfl⟩ := EStateM.Result.ok.inj h
    simp [hnone, pinEvents]

theorem enrolCredential_events {params : AuthenticatorParameters} {deviceInfo : CborInfo}
    (h : enrolCredential P invocation s = .ok (params, deviceInfo) s') :
    s'.events = s.events ++ pinEvents params.authenticatorPin := by
  simp only [enrolCredential, bind_eq_ok, plain_eq_ok, lift_eq_ok] at h
  obtain ⟨path, s₁, ⟨-, h₁⟩, _, s₂, ⟨-, h₂⟩, info, s₃, ⟨-, h₃⟩, _, s₄, ⟨-, h₄⟩,
    params₀, s₅, ⟨⟨hnew, -⟩, h₅⟩, params₁, s₆, hpin, params₂, s₇, ⟨hmake, h₇⟩, _, s₈, ⟨-, h₈⟩, h⟩ := h
  obtain ⟨he, rfl⟩ := EStateM.Result.ok.inj h
  obtain ⟨rfl, rfl⟩ := Prod.mk.inj he
  have hnone : params₀.authenticatorPin = none := by
    simp only [newAuthenticatorParameters, allocateParametersExceptRpid, except_bind_eq_ok,
      except_pure, Except.ok.injEq] at hnew
    obtain ⟨_, ⟨_, -, _, -, _, -, _, -, _, -, rfl⟩, _, -, rfl⟩ := hnew
    rfl
  have hsame : params₂.authenticatorPin = params₁.authenticatorPin := by
    rw [(createCredential_spec hmake).2.1]
  rw [h₈, h₇, pinForEnrolment_events hnone hpin, h₅, h₄, h₃, h₂, h₁, hsame]

theorem makeNewKeySpec_events {keySpec : KeySpec}
    (h : makeNewKeySpecFromInvocation P invocation s = .ok keySpec s') :
    invocation.passphrase = some keySpec.passphrase ∧ s'.events = s.events ++
      filled .keySpecPassphrase (keySpec.passphrase.length + 1) keySpec.passphrase.length := by
  simp only [makeNewKeySpecFromInvocation, strdupPassphrase, bind_eq_ok, plain_eq_ok, lift_eq_ok,
    emit_eq_ok] at h
  obtain ⟨_, s₁, ⟨⟨hmake, -⟩, he⟩, _, s₂, rfl, h⟩ := h
  obtain ⟨rfl, rfl⟩ := EStateM.Result.ok.inj h
  exact ⟨(makeNewKeySpecFromInvocation_spec hmake).1, congrArg (· ++ _) he⟩

theorem buildDeserializedCleartext_events {params : AuthenticatorParameters} {keySpec : KeySpec}
    {cleartext : DeserializedCleartext}
    (h : buildDeserializedCleartextFromAuthenticatorParametersAndKeySpec P params keySpec s =
      .ok cleartext s') : ∃ size, s'.events = s.events ++ sealingEvents size := by
  simp only [buildDeserializedCleartextFromAuthenticatorParametersAndKeySpec, bind_eq_ok,
    plain_eq_ok, lift_eq_ok, emit_eq_ok] at h
  obtain ⟨serialized, s₁, ⟨-, h₁⟩, _, s₂, rfl, key, s₃, hkey, h⟩ := h
  cases heasy : P.sodium.cryptoSecretboxEasy serialized P.entropy.nonce.toList key with
  | none => simp [heasy, plain_eq_ok, errx] at h
  | some encryptedData =>
    simp only [heasy, bind_eq_ok, emit_eq_ok] at h
    obtain ⟨_, s₄, rfl, _, s₅, rfl, h⟩ := h
    obtain ⟨-, rfl⟩ := EStateM.Result.ok.inj h
    refine ⟨serialized.length, ?_⟩
    dsimp only
    rw [deriveKey_events hkey, h₁]
    simp [sealingEvents]

theorem sealKeyfile_events {params : AuthenticatorParameters} {deviceInfo : CborInfo}
    {f : EncodedFile} (h : sealKeyfile P invocation params deviceInfo s = .ok f s') :
    ∃ passphrase size, invocation.passphrase = some passphrase ∧
      s'.events = s.events ++ filled .keySpecPassphrase (passphrase.length + 1) passphrase.length ++
        sealingEvents size ++ releaseEvents .keySpecPassphrase (some passphrase) ++
        releaseEvents .authenticatorPin params.authenticatorPin ++
        wipeEvents .invocationPassphrase (some passphrase) ++
        wipeEvents .invocationPin invocation.authenticatorPin := by
  simp only [sealKeyfile, wipeInvocation, freeKeySpec, freeParameters_eq, bind_eq_ok, plain_eq_ok,
    emit_eq_ok] at h
  obtain ⟨keySpec, s₁, hspec, cleartext, s₂, hbuild, _, s₃, rfl, _, s₄, ⟨-, h₄⟩, _, s₅, rfl,
    _, s₆, ⟨_, s₇, rfl, rfl⟩, path, s₈, ⟨-, h₈⟩, -, h⟩ := h
  obtain ⟨hpassphrase, h₁⟩ := makeNewKeySpec_events hspec
  obtain ⟨size, h₂⟩ := buildDeserializedCleartext_events hbuild
  refine ⟨keySpec.passphrase, size, hpassphrase, ?_⟩
  rw [h, h₈]
  dsimp only
  rw [h₄]
  dsimp only
  rw [h₂, h₁, hpassphrase]
  rfl

theorem enrolDevice_events {u : Unit}
    (h : enrolDeviceAndFreeInvocation P invocation s = .ok u s') :
    ∃ pin passphrase size, invocation.passphrase = some passphrase ∧
      s'.events = s.events ++ enrolmentEvents pin passphrase size invocation.authenticatorPin := by
  simp only [enrolDeviceAndFreeInvocation, enrolDevice, freeInvocation_eq, bind_eq_ok, plain_eq_ok,
    emit_eq_ok] at h
  obtain ⟨_, s₁, ⟨⟨params, info⟩, s₂, hcredential, f, s₃, hseal, -, h₁⟩, rfl⟩ := h
  obtain ⟨passphrase, size, hpassphrase, h₃⟩ := sealKeyfile_events hseal
  refine ⟨params.authenticatorPin, passphrase, size, hpassphrase, ?_⟩
  dsimp only
  rw [h₁, h₃, enrolCredential_events hcredential, zeroed, hpassphrase]
  simp only [enrolmentEvents, List.append_assoc, Option.map_some]

end Events

/-- What an enrolment does to each buffer. -/
theorem about_enrolmentEvents (pin : Option CString) (passphrase : CString) (size : ℕ)
    (invocationPin : Option CString) (b : SecretBuffer) :
    about b (enrolmentEvents pin passphrase size invocationPin) = match b with
      | .invocationPassphrase => wipeEvents b (some passphrase) ++ releaseEvents b (some (literal ""))
      | .invocationPin => wipeEvents b invocationPin
      | .keySpecPassphrase =>
        filled b (passphrase.length + 1) passphrase.length ++ releaseEvents b (some passphrase)
      | .keyBytes => filled b keySize keySize ++ [.free b]
      | .serializedUnencryptedSecrets => filled b size size ++ [.wipe b size, .free b]
      | .authenticatorPin => pinEvents pin ++ releaseEvents b pin
      | .decrypted | .secret => [] := by
  cases pin <;> cases invocationPin <;> cases b <;> rfl

/-- The key is not wiped, and everything else is if the passphrase of the invocation is a string
in its buffer. -/
theorem wiped_enrolmentEvents_iff {past : List SecretEvent} {passphrase : CString} {b : SecretBuffer}
    (hpast : b = .invocationPassphrase → exposed b past ⊆ Finset.range passphrase.length)
    (pin invocationPin : Option CString) (size : ℕ) :
    AtEach (WipedFirst b) past (enrolmentEvents pin passphrase size invocationPin) ↔
      b ≠ .keyBytes := by
  rw [wipedFirst_about, about_enrolmentEvents]
  cases b with
  | keyBytes =>
    have hkey : keySize ≠ 0 := by decide
    simp [filled, AtEach, hkey]
  | invocationPassphrase =>
    have hempty : (literal "").length = 0 := rfl
    simp [wipeEvents, releaseEvents, AtEach, hempty, hpast rfl]
  | authenticatorPin => cases pin <;> simp [pinEvents, releaseEvents, filled, AtEach]
  | invocationPin => cases invocationPin <;> simp [wipeEvents, AtEach]
  | _ => simp [releaseEvents, filled, AtEach]

/-! ## Generation -/

/-- The PIN buffers of the devices that have a PIN, behind one that the parameters own. -/
def pinTurns : Option CString → List CString → List SecretEvent
  | _, [] => []
  | pin, next :: pins =>
    (pin.elim [] fun _ => [.overwrite .authenticatorPin]) ++ pinEvents (some next) ++
      pinTurns (some next) pins

/-- The PIN that the parameters own at the end. -/
def lastPin (pin : Option CString) (pins : List CString) : Option CString :=
  pins.foldl (fun _ next => some next) pin

/-- What is freed once a device has answered with a secret, and what is freed when none has. -/
def endingEvents (invocation : InvocationState) (pin : Option CString) :
    Option Bytes → List SecretEvent
  | some secret => filled .secret secret.length secret.length ++
      releaseEvents .authenticatorPin pin ++ [.free .secret]
  | none => releaseEvents .invocationPassphrase invocation.passphrase ++
      releaseEvents .authenticatorPin pin

def openingEvents (passphrase : CString) (allocated decrypted : ℕ) : List SecretEvent :=
  filled .keySpecPassphrase (passphrase.length + 1) passphrase.length ++
    filled .keyBytes keySize keySize ++ releaseEvents .keySpecPassphrase (some passphrase) ++
    filled .decrypted allocated decrypted ++ [.free .decrypted] ++
    [.wipe .keyBytes keySize, .free .keyBytes]

def generationEvents (invocation : InvocationState) (passphrase : CString)
    (allocated decrypted : ℕ) (pins : List CString) (answer : Option Bytes) : List SecretEvent :=
  openingEvents passphrase allocated decrypted ++ pinTurns none pins ++
    endingEvents invocation (lastPin none pins) answer

section Events

variable {P : Platform} {invocation : InvocationState} {s s' : Recorded World SecretEvent}
  {c : DeserializedCleartext} {device : FidoDev} {params params' : AuthenticatorParameters}

theorem makeKeySpec_events {passphrase : Option CString} {keySpec : KeySpec}
    (h : makeKeySpecFromPassphraseAndCleartext P passphrase c s = .ok keySpec s') :
    passphrase = some keySpec.passphrase ∧ s'.events = s.events ++
      filled .keySpecPassphrase (keySpec.passphrase.length + 1) keySpec.passphrase.length := by
  simp only [makeKeySpecFromPassphraseAndCleartext, strdupPassphrase, bind_eq_ok, plain_eq_ok,
    lift_eq_ok, emit_eq_ok] at h
  obtain ⟨keySpec', s₁, ⟨⟨hmake, -⟩, he⟩, _, s₂, rfl, h⟩ := h
  obtain ⟨rfl, rfl⟩ := EStateM.Result.ok.inj h
  obtain ⟨p, hp, hinput⟩ := makeKeySpecFromPassphraseAndCleartext_spec hmake
  have hsame : keySpec'.passphrase = p := CString.ext (congrArg PwhashInput.passwd hinput)
  exact ⟨hsame ▸ hp, congrArg (· ++ _) he⟩

theorem ne_nil_of_loadSecretsFromBytes (hf : P.cbor.FollowsFormat) {decrypted : Bytes}
    {secrets : DeserializedSecrets} (h : loadSecretsFromBytes P decrypted = .ok secrets) :
    decrypted ≠ [] := by
  rintro rfl
  simp only [loadSecretsFromBytes, except_bind_eq_ok, loadArray_eq_ok] at h
  obtain ⟨items, ⟨definite, hload⟩, -⟩ := h
  obtain ⟨rest, hdecode⟩ := hf.load_sound hload
  simp [Cbor.decode, Cbor.decodeItem] at hdecode

theorem buildAuthenticatorParameters_events (hf : P.cbor.FollowsFormat) {key : Bytes}
    {mixin : Option CString}
    (h : buildAuthenticatorParametersFromDeserializedCleartextAndKeyAndMixin P c key mixin s =
      .ok params s') :
    ∃ allocated decrypted, decrypted ≠ 0 ∧
      s'.events = s.events ++ filled .decrypted allocated decrypted ++ [.free .decrypted] := by
  simp only [buildAuthenticatorParametersFromDeserializedCleartextAndKeyAndMixin, bind_eq_ok,
    plain_eq_ok, lift_eq_ok, emit_eq_ok] at h
  obtain ⟨decrypted, s₁, ⟨-, h₁⟩, _, s₂, rfl, secrets, s₃, ⟨⟨hload, -⟩, h₃⟩, _, s₄, rfl, -, h⟩ := h
  have hne : decrypted.length ≠ 0 := by
    simpa using ne_nil_of_loadSecretsFromBytes hf hload
  refine ⟨sizeSub c.encryptedData.length cryptoSecretboxMacbytes, decrypted.length, hne, ?_⟩
  rw [h]
  dsimp only
  rw [h₃]
  dsimp only
  rw [h₁]

theorem openKeyfile_events (hf : P.cbor.FollowsFormat)
    (h : openKeyfile P invocation s = .ok (c, params) s') :
    ∃ passphrase allocated decrypted, invocation.passphrase = some passphrase ∧ decrypted ≠ 0 ∧
      s'.events = s.events ++ openingEvents passphrase allocated decrypted := by
  simp only [openKeyfile, freeKeySpec, freeKey, bind_eq_ok, plain_eq_ok, emit_eq_ok] at h
  obtain ⟨path, s₁, ⟨-, h₁⟩, f, s₂, ⟨-, h₂⟩, cleartext, s₃, ⟨-, h₃⟩, keySpec, s₄, hspec, key, s₅,
    hkey, _, s₆, rfl, params', s₇, hbuild, _, s₈, rfl, h⟩ := h
  obtain ⟨-, rfl⟩ := EStateM.Result.ok.inj h
  obtain ⟨hpassphrase, h₄⟩ := makeKeySpec_events hspec
  obtain ⟨allocated, decrypted, hne, h₇⟩ := buildAuthenticatorParameters_events hf hbuild
  refine ⟨keySpec.passphrase, allocated, decrypted, hpassphrase, hne, ?_⟩
  dsimp only
  rw [h₇]
  dsimp only
  rw [deriveKey_events hkey, h₄, h₃, h₂, h₁]
  simp only [openingEvents, releaseEvents, Option.elim_some, List.append_assoc]

/-- A device with a PIN adds to the PIN buffers, one without leaves them. -/
theorem pinForGeneration_events
    (h : pinForGeneration P device invocation params s = .ok params' s') :
    ∃ pins, s'.events = s.events ++ pinTurns params.authenticatorPin pins ∧
      params'.authenticatorPin = lastPin params.authenticatorPin pins := by
  unfold pinForGeneration at h
  split at h
  · simp only [bind_eq_ok, plain_eq_ok, emit_eq_ok] at h
    obtain ⟨_, s₁, ⟨-, h₁⟩, _, s₂, rfl, _, s₃, rfl, _, s₄, ⟨-, h₄⟩, pin, s₅, hpin, h⟩ := h
    obtain ⟨rfl, rfl⟩ := EStateM.Result.ok.inj h
    refine ⟨[pin], ?_, by simp [lastPin]⟩
    rw [authenticatorPin_events hpin, h₄]
    dsimp only
    rw [h₁]
    simp [pinTurns, pinEvents, filled]
  · obtain ⟨rfl, rfl⟩ := EStateM.Result.ok.inj h
    exact ⟨[], by simp [pinTurns], rfl⟩

theorem getSecret_events {result : ℤ} {secret : Bytes}
    (h : getSecretFromAuthenticatorParams P device params s = .ok (result, secret) s') :
    (result = fidoOk ↔ secret ≠ []) ∧ s'.events = s.events ++
      (if secret = [] then [] else filled .secret secret.length secret.length) := by
  simp only [getSecretFromAuthenticatorParams, bind_eq_ok, plain_eq_ok, emit_eq_ok] at h
  obtain ⟨⟨result', secret'⟩, s₁, ⟨hget, h₁⟩, _, s₂, rfl, h⟩ := h
  obtain ⟨hpair, rfl⟩ := EStateM.Result.ok.inj h
  obtain ⟨rfl, rfl⟩ := Prod.mk.inj hpair
  exact ⟨(getSecret_spec hget).2.2.2.1, congrArg (· ++ _) h₁⟩

/-- A secret is freed where it is printed, behind the parameters. -/
theorem askDevice_events (invocation : InvocationState) {r : Option AuthenticatorParameters}
    (h : askDevice P device params s = .ok r s') :
    (r = some params ∧ s'.events = s.events) ∨
    ∃ secret, r = none ∧ secret ≠ [] ∧ s'.events = s.events ++
      endingEvents invocation params.authenticatorPin (some secret) := by
  simp only [askDevice, bind_eq_ok, plain_eq_ok] at h
  obtain ⟨_, s₁, ⟨-, h₁⟩, ⟨result, secret⟩, s₂, hget, _, s₃, ⟨-, h₃⟩, h⟩ := h
  obtain ⟨hsecret, h₂⟩ := getSecret_events hget
  dsimp only at h
  split at h
  · next hok =>
    have hne := hsecret.mp hok
    simp only [freeParameters_eq, freeSecret, if_neg hne, bind_eq_ok, plain_eq_ok, emit_eq_ok] at h
    obtain ⟨_, s₄, ⟨-, h₄⟩, _, s₅, rfl, _, s₆, rfl, h⟩ := h
    obtain ⟨rfl, rfl⟩ := EStateM.Result.ok.inj h
    refine Or.inr ⟨secret, rfl, hne, ?_⟩
    dsimp only
    rw [h₄, h₃, h₂, h₁, if_neg hne]
    simp only [endingEvents, List.append_assoc]
  · next hok =>
    have hempty : secret = [] := not_not.mp (mt hsecret.mpr hok)
    simp only [freeSecret, if_pos hempty, bind_eq_ok, plain_eq_ok, pure_apply] at h
    obtain ⟨_, s₄, hpure, _, s₅, ⟨-, h₅⟩, h⟩ := h
    obtain ⟨-, rfl⟩ := EStateM.Result.ok.inj hpure
    obtain ⟨rfl, rfl⟩ := EStateM.Result.ok.inj h
    refine Or.inl ⟨rfl, ?_⟩
    rw [h₅, h₃, h₂, h₁, if_pos hempty, List.append_nil]

/-- A turn takes a PIN or none, and may end the search. -/
theorem tryDevice_events {r : Option AuthenticatorParameters}
    (h : tryDevice P invocation c device params s = .ok r s') :
    ∃ pins, (∃ params', r = some params' ∧
        params'.authenticatorPin = lastPin params.authenticatorPin pins ∧
        s'.events = s.events ++ pinTurns params.authenticatorPin pins) ∨
      ∃ secret, r = none ∧ secret ≠ [] ∧
        s'.events = s.events ++ pinTurns params.authenticatorPin pins ++
          endingEvents invocation (lastPin params.authenticatorPin pins) (some secret) := by
  simp only [tryDevice, bind_eq_ok, plain_eq_ok] at h
  obtain ⟨_, s₁, ⟨-, h₁⟩, info, s₂, ⟨-, h₂⟩, matched, s₃, ⟨-, h₃⟩, h⟩ := h
  have hunmoved : s₃.events = s.events := by rw [h₃, h₂, h₁]
  split at h
  · obtain ⟨rfl, rfl⟩ := EStateM.Result.ok.inj h
    exact ⟨[], Or.inl ⟨params, rfl, rfl, by simp [hunmoved, pinTurns]⟩⟩
  split at h
  · simp only [bind_eq_ok, plain_eq_ok] at h
    obtain ⟨_, s₄, ⟨-, h₄⟩, h⟩ := h
    obtain ⟨rfl, rfl⟩ := EStateM.Result.ok.inj h
    exact ⟨[], Or.inl ⟨params, rfl, rfl, by simp [h₄, hunmoved, pinTurns]⟩⟩
  simp only [tryCandidate, bind_eq_ok] at h
  obtain ⟨params', s₄, hpin, h⟩ := h
  obtain ⟨pins, h₄, hlast⟩ := pinForGeneration_events hpin
  rw [hunmoved] at h₄
  refine ⟨pins, ?_⟩
  split at h
  · simp only [bind_eq_ok, plain_eq_ok] at h
    obtain ⟨_, s₅, ⟨-, h₅⟩, _, s₆, ⟨-, h₆⟩, h⟩ := h
    obtain ⟨rfl, rfl⟩ := EStateM.Result.ok.inj h
    exact Or.inl ⟨params', rfl, hlast, by rw [h₆, h₅, h₄]⟩
  · rcases askDevice_events invocation h with ⟨rfl, h₅⟩ | ⟨secret, rfl, hne, h₅⟩
    · exact Or.inl ⟨params', rfl, hlast, by rw [h₅, h₄]⟩
    · exact Or.inr ⟨secret, rfl, hne, by rw [h₅, h₄, hlast]⟩

theorem lastPin_append (pin : Option CString) (pins pins' : List CString) :
    lastPin pin (pins ++ pins') = lastPin (lastPin pin pins) pins' := List.foldl_append

theorem pinTurns_append (pin : Option CString) (pins pins' : List CString) :
    pinTurns pin (pins ++ pins') = pinTurns pin pins ++ pinTurns (lastPin pin pins) pins' := by
  induction pins generalizing pin with
  | nil => rfl
  | cons next pins ih =>
    have hlast : lastPin pin (next :: pins) = lastPin (some next) pins := rfl
    rw [List.cons_append, pinTurns, pinTurns, ih, hlast]
    simp only [List.append_assoc]

theorem searchDevices_events {devices : List Authenticator} {slot : ℕ} {found : Bool}
    (h : searchDevices P invocation c slot devices params s = .ok found s') :
    ∃ pins answer, (found = true ↔ answer ≠ none) ∧ answer ≠ some [] ∧
      s'.events = s.events ++ pinTurns params.authenticatorPin pins ++
        endingEvents invocation (lastPin params.authenticatorPin pins) answer := by
  induction devices generalizing slot params s with
  | nil =>
    simp only [searchDevices, freeInvocation_eq, freeParameters_eq, bind_eq_ok, emit_eq_ok] at h
    obtain ⟨_, s₁, rfl, _, s₂, rfl, h⟩ := h
    obtain ⟨rfl, rfl⟩ := EStateM.Result.ok.inj h
    exact ⟨[], none, by simp, by simp, by simp [pinTurns, lastPin, endingEvents]⟩
  | cons a devices ih =>
    simp only [searchDevices, bind_eq_ok] at h
    obtain ⟨r, s₁, hturn, h⟩ := h
    obtain ⟨pins, ⟨params', rfl, hlast, h₁⟩ | ⟨secret, rfl, hne, h₁⟩⟩ := tryDevice_events hturn
    · obtain ⟨pins', answer, hfound, hanswer, h₂⟩ := ih h
      refine ⟨pins ++ pins', answer, hfound, hanswer, ?_⟩
      rw [h₂, h₁, hlast, lastPin_append, pinTurns_append, List.append_assoc s.events]
    · obtain ⟨rfl, rfl⟩ := EStateM.Result.ok.inj h
      exact ⟨pins, some secret, by simp, by simpa using hne, h₁⟩

theorem printSecret_events (hf : P.cbor.FollowsFormat) {devicesList : List Authenticator}
    {status : ExitStatus}
    (h : printSecretConsumingInvocation P invocation devicesList s = .ok status s') :
    ∃ passphrase allocated decrypted pins answer, invocation.passphrase = some passphrase ∧
      decrypted ≠ 0 ∧ answer ≠ some [] ∧ (status = .success ↔ answer ≠ none) ∧
      s'.events = s.events ++
        generationEvents invocation passphrase allocated decrypted pins answer := by
  simp only [printSecretConsumingInvocation, bind_eq_ok] at h
  obtain ⟨⟨c, params⟩, s₁, hopen, found, s₂, hsearch, h⟩ := h
  obtain ⟨passphrase, allocated, decrypted, hpassphrase, hdecrypted, h₁⟩ :=
    openKeyfile_events hf hopen
  have hpin := no_pin_of_openKeyfile ((erases_openKeyfile P invocation).ok hopen)
  obtain ⟨pins, answer, hfound, hanswer, h₂⟩ := searchDevices_events hsearch
  have hend : (status = .success ↔ found = true) ∧ s' = s₂ := by
    split at h
    · next hyes =>
      obtain ⟨rfl, rfl⟩ := EStateM.Result.ok.inj h
      exact ⟨by simp [hyes], rfl⟩
    · next hno =>
      split at h
      all_goals
        obtain ⟨rfl, rfl⟩ := EStateM.Result.ok.inj h
        exact ⟨by simp [hno], rfl⟩
  obtain ⟨hstatus, rfl⟩ := hend
  refine ⟨passphrase, allocated, decrypted, pins, answer, hpassphrase, hdecrypted, hanswer,
    hstatus.trans hfound, ?_⟩
  rw [h₂, h₁, hpin]
  simp only [generationEvents, List.append_assoc]

end Events

/-- The buffers that a generation wipes before it gives them up. -/
def WipedInGeneration (pins : List CString) (answer : Option Bytes) : SecretBuffer → Prop
  | .decrypted => False
  | .secret => answer = none
  | .authenticatorPin => ∀ pin ∈ pins.dropLast, pin.length = 0
  | _ => True

section Wiping

variable {past : List SecretEvent}

theorem buffer_pinTurns {pin : Option CString} {pins : List CString} {e : SecretEvent}
    (he : e ∈ pinTurns pin pins) : e.buffer = .authenticatorPin := by
  induction pins generalizing pin with
  | nil => simp [pinTurns] at he
  | cons next pins ih =>
    rw [pinTurns, List.mem_append, List.mem_append] at he
    rcases he with (he | he) | he
    · cases pin with
      | none => simp at he
      | some p =>
        obtain rfl := List.mem_singleton.mp he
        rfl
    · simp only [pinEvents, filled, Option.elim_some, List.mem_cons, List.not_mem_nil,
        or_false] at he
      rcases he with rfl | rfl <;> rfl
    · exact ih he

/-- The PIN of every device but the last is lost with its buffer. -/
theorem wiped_pinTurns_iff {pin : Option CString} {pins : List CString}
    (hpin : ∀ p, pin = some p → exposed .authenticatorPin past = Finset.range p.length) :
    (AtEach (WipedFirst .authenticatorPin) past (pinTurns pin pins) ↔
      ∀ p ∈ (pin.toList ++ pins).dropLast, p.length = 0) ∧
    ∀ p, lastPin pin pins = some p →
      exposed .authenticatorPin (past ++ pinTurns pin pins) = Finset.range p.length := by
  induction pins generalizing pin past with
  | nil =>
    refine ⟨?_, fun p hp => by simpa [pinTurns] using hpin p hp⟩
    cases pin <;> simp [pinTurns, AtEach]
  | cons next pins ih =>
    have hnext : ∀ t : List SecretEvent,
        exposed .authenticatorPin (t ++ pinEvents (some next)) = Finset.range next.length := by
      intro t
      simp [pinEvents, filled]
    have htaken : ∀ t : List SecretEvent,
        AtEach (WipedFirst .authenticatorPin) t (pinEvents (some next)) := by
      intro t
      simp [pinEvents, filled, AtEach]
    obtain ⟨hiff, hlast⟩ := @ih
      (past ++ (pin.elim [] fun _ => [.overwrite .authenticatorPin]) ++ pinEvents (some next))
      (some next) fun p hp => by
        obtain rfl := Option.some.inj hp
        exact hnext _
    refine ⟨?_, fun p hp => ?_⟩
    · rw [pinTurns, atEach_append, atEach_append, ← List.append_assoc, hiff]
      cases pin with
      | none => simp [AtEach, htaken]
      | some p => simp [AtEach, htaken, hpin p rfl]
    · rw [pinTurns, ← List.append_assoc, ← List.append_assoc]
      exact hlast p hp

/-- What a generation does to each buffer. -/
theorem about_generationEvents (invocation : InvocationState) (passphrase : CString)
    (allocated decrypted : ℕ) (pins : List CString) (answer : Option Bytes) (b : SecretBuffer) :
    about b (generationEvents invocation passphrase allocated decrypted pins answer) = match b with
      | .invocationPassphrase => answer.elim (releaseEvents b invocation.passphrase) fun _ => []
      | .keySpecPassphrase =>
        filled b (passphrase.length + 1) passphrase.length ++ releaseEvents b (some passphrase)
      | .keyBytes => filled b keySize keySize ++ [.wipe b keySize, .free b]
      | .decrypted => filled b allocated decrypted ++ [.free b]
      | .authenticatorPin => pinTurns none pins ++ releaseEvents b (lastPin none pins)
      | .secret => answer.elim [] fun secret => filled b secret.length secret.length ++ [.free b]
      | .invocationPin | .serializedUnencryptedSecrets => [] := by
  have hothers : b ≠ .authenticatorPin → about b (pinTurns none pins) = [] := fun hb =>
    about_eq_nil fun e he => buffer_pinTurns he ▸ hb.symm
  have hpins : about .authenticatorPin (pinTurns none pins) = pinTurns none pins :=
    about_eq_self fun e he => buffer_pinTurns he
  obtain ⟨_, _, _, given, _, _, _, _⟩ := invocation
  rw [generationEvents, about_append, about_append]
  cases b with
  | authenticatorPin =>
    rw [hpins]
    cases answer <;> cases given <;> cases lastPin none pins <;> rfl
  | _ =>
    rw [hothers (by simp)]
    cases answer <;> cases given <;> cases lastPin none pins <;> rfl

theorem wiped_generationEvents_iff {invocation : InvocationState}
    {passphrase : CString} (hp : invocation.passphrase = some passphrase) {b : SecretBuffer}
    (hpast : b = .invocationPassphrase → exposed b past ⊆ Finset.range passphrase.length)
    {allocated decrypted : ℕ} (hdecrypted : decrypted ≠ 0) (pins : List CString)
    {answer : Option Bytes} (hanswer : answer ≠ some []) :
    AtEach (WipedFirst b) past
      (generationEvents invocation passphrase allocated decrypted pins answer) ↔
    WipedInGeneration pins answer b := by
  rw [wipedFirst_about, about_generationEvents]
  cases b with
  | authenticatorPin =>
    obtain ⟨hturns, hlast⟩ := @wiped_pinTurns_iff past none pins (by simp)
    rw [atEach_append, hturns]
    cases hpin : lastPin none pins with
    | none => simp [WipedInGeneration, releaseEvents, AtEach]
    | some p =>
      have hwiped : exposed .authenticatorPin
          (past ++ pinTurns none pins ++ [.wipe .authenticatorPin p.length]) = ∅ := by
        rw [exposed_append, hlast p hpin]
        simp
      exact and_iff_left ⟨wipedFirst_wipe, wipedFirst_free.mpr hwiped, trivial⟩
  | invocationPassphrase =>
    cases answer <;> simp [WipedInGeneration, releaseEvents, AtEach, hp, hpast rfl]
  | secret =>
    cases answer with
    | none => simp [WipedInGeneration, AtEach]
    | some secret =>
      have hne : secret.length ≠ 0 := by simpa using hanswer
      simp [WipedInGeneration, filled, AtEach, hne]
  | _ => simp [WipedInGeneration, releaseEvents, filled, AtEach, hdecrypted]

end Wiping

/-! ## What is required of a run -/

/-- Every buffer of a secret that is given up is wiped first. -/
def GivesUpWiped (s s' : Recorded World SecretEvent) : Prop :=
  ∀ b, Continues (WipedFirst b) s.events s'.events

section Runs

variable {P : Platform} {invocation : InvocationState} {s s' : Recorded World SecretEvent}

/-- An enrolment wipes the buffers of all secrets but the key. -/
theorem enrolDevice_wipes_iff {u : Unit}
    (h : enrolDeviceAndFreeInvocation P invocation s = .ok u s') {b : SecretBuffer}
    (hpast : b = .invocationPassphrase → ∀ passphrase, invocation.passphrase = some passphrase →
      exposed b s.events ⊆ Finset.range passphrase.length) :
    Continues (WipedFirst b) s.events s'.events ↔ b ≠ .keyBytes := by
  obtain ⟨pin, passphrase, size, hpassphrase, hevents⟩ := enrolDevice_events h
  rw [hevents, continues_append_iff]
  exact wiped_enrolmentEvents_iff (fun hb => hpast hb passphrase hpassphrase) _ _ _

/-- A generation wipes neither the decrypted secrets, nor a secret that it prints, nor the PIN of
a device that is followed by another one with a PIN. -/
theorem printSecret_wipes_iff (hf : P.cbor.FollowsFormat) {devicesList : List Authenticator}
    {status : ExitStatus}
    (h : printSecretConsumingInvocation P invocation devicesList s = .ok status s')
    (hpast : ∀ passphrase, invocation.passphrase = some passphrase →
      exposed .invocationPassphrase s.events ⊆ Finset.range passphrase.length) :
    ∃ passphrase allocated decrypted pins answer,
      s'.events = s.events ++
        generationEvents invocation passphrase allocated decrypted pins answer ∧
      (status = .success ↔ answer ≠ none) ∧
      ∀ b, Continues (WipedFirst b) s.events s'.events ↔ WipedInGeneration pins answer b := by
  obtain ⟨passphrase, allocated, decrypted, pins, answer, hpassphrase, hdecrypted, hanswer,
    hstatus, hevents⟩ := printSecret_events hf h
  refine ⟨passphrase, allocated, decrypted, pins, answer, hevents, hstatus, fun b => ?_⟩
  rw [hevents, continues_append_iff]
  refine wiped_generationEvents_iff hpassphrase (fun hb => ?_) hdecrypted pins hanswer
  rw [hb]
  exact hpast passphrase hpassphrase

theorem enrolDevice_frees_key {u : Unit}
    (h : enrolDeviceAndFreeInvocation P invocation s = .ok u s') :
    ¬Continues (WipedFirst .keyBytes) s.events s'.events := by
  rw [enrolDevice_wipes_iff h (by simp)]
  simp

theorem printSecret_frees_decrypted (hf : P.cbor.FollowsFormat) {devicesList : List Authenticator}
    {status : ExitStatus}
    (h : printSecretConsumingInvocation P invocation devicesList s = .ok status s') :
    ¬Continues (WipedFirst .decrypted) s.events s'.events := by
  obtain ⟨passphrase, allocated, decrypted, pins, answer, hpassphrase, hdecrypted, hanswer, -,
    hevents⟩ := printSecret_events hf h
  rw [hevents, continues_append_iff,
    wiped_generationEvents_iff hpassphrase (by simp) hdecrypted pins hanswer]
  exact id

/-- Every enrolment frees its key unwiped, and every generation the secrets it has decrypted. -/
theorem not_givesUpWiped (P : Platform) (invocation : InvocationState)
    (s s' : Recorded World SecretEvent) :
    (enrolDeviceAndFreeInvocation P invocation s = .ok () s' → ¬GivesUpWiped s s') ∧
    ∀ devicesList status, P.cbor.FollowsFormat →
      printSecretConsumingInvocation P invocation devicesList s = .ok status s' →
      ¬GivesUpWiped s s' := by
  constructor
  · intro h hwiped
    exact enrolDevice_frees_key h (hwiped .keyBytes)
  · intro devicesList status hf h hwiped
    exact printSecret_frees_decrypted hf h (hwiped .decrypted)

end Runs

/-! ## Such runs -/

/-- The passphrase of the invocation is in its buffer when the subcommand is run. -/
def parsed (invocation : InvocationState) (w : World) : Recorded World SecretEvent :=
  ⟨w, invocation.passphrase.elim [] fun s =>
    filled .invocationPassphrase (s.length + 1) s.length⟩

theorem exists_enrolment : ∃ s', enrolDeviceAndFreeInvocation (referenceHost referenceDevice)
    referenceInvocation (parsed referenceInvocation emptyWorld) = .ok () s' := by
  have hf := referenceCbor_followsFormat
  obtain ⟨run, hstart, hsize⟩ : ∃ run : EnrolRun (referenceHost referenceDevice) referenceInvocation,
      run.start = emptyWorld ∧ run.file.data.length ≤ 4096 :=
    exists_run_of_enrolledData_le (by decide +kernel)
  have hplain : ∃ w', Khefin.enrolDevice (referenceHost referenceDevice) referenceInvocation
      emptyWorld = .ok () w' := by
    rw [← hstart, run.enrolDevice_eq]
    rcases writeFile_cases (referenceHost referenceDevice) run.file run.finish with
      ⟨ho, -⟩ | ⟨-, hs, -⟩ | ⟨-, -, hw, -⟩ | ⟨-, -, -, hwritten⟩
    · exact absurd ho (by decide)
    · exact absurd hs (by decide)
    · rcases hw with hw | hw
      · exact absurd hsize hw.not_ge
      · exact absurd hw (ne_nil_of_loadCleartext hf (run.loadCleartext_eq hf hf
          (referencePlatform_allocates_payload referenceBox.sodium referenceDevice)
          (hsize.trans (by decide)) run.path))
    · exact ⟨_, hwritten⟩
  obtain ⟨w', hw'⟩ := hplain
  obtain ⟨s', hs', -⟩ := (erases_enrolDevice _ _).exists_ok
    (s := parsed referenceInvocation emptyWorld) hw'
  exact ⟨s', hs'⟩

theorem exists_generation : ∃ data s', printSecretConsumingInvocation (referenceHost referenceDevice)
    (referenceOpening (literal "correct horse")) [referenceDevice]
    (parsed (referenceOpening (literal "correct horse")) (storedWorld data)) =
      .ok .success s' := by
  obtain ⟨data, params, w₁, hopen, hc, hs⟩ := exists_openedReference
  have hsettled : ∀ a ∈ [referenceDevice],
      a.Settled referenceKeyfile params.assertionRequest [0x5e, 0xc3] := by
    intro a ha
    obtain rfl := List.mem_singleton.mp ha
    exact Or.inl (holds_reference _)
  obtain ⟨w', hsearch, -⟩ : EndsWith w₁ false true _ (some (.secret [0x5e, 0xc3])) :=
    searchDevices_endsWith (P := referenceHost referenceDevice) hc hs (by decide) (by decide)
      (by decide) hsettled 0 w₁
  obtain ⟨s', hs', -⟩ := (erases_printSecret _ _ _).exists_ok
    (s := parsed (referenceOpening (literal "correct horse")) (storedWorld data))
    (printSecret_of_search_ok hopen hsearch)
  exact ⟨data, s', hs'⟩

theorem not_givesUpWiped_reference :
    (∃ s', enrolDeviceAndFreeInvocation (referenceHost referenceDevice) referenceInvocation
        (parsed referenceInvocation emptyWorld) = .ok () s' ∧
      ¬GivesUpWiped (parsed referenceInvocation emptyWorld) s') ∧
    ∃ data s', printSecretConsumingInvocation (referenceHost referenceDevice)
        (referenceOpening (literal "correct horse")) [referenceDevice]
        (parsed (referenceOpening (literal "correct horse")) (storedWorld data)) =
          .ok .success s' ∧
      ¬GivesUpWiped (parsed (referenceOpening (literal "correct horse")) (storedWorld data)) s' := by
  obtain ⟨s₁, henrolled⟩ := exists_enrolment
  obtain ⟨data, s₂, hgenerated⟩ := exists_generation
  exact ⟨⟨s₁, henrolled, (not_givesUpWiped _ _ _ _).1 henrolled⟩, data, s₂, hgenerated,
    (not_givesUpWiped _ _ _ _).2 _ _ referenceCbor_followsFormat hgenerated⟩

/-- The key of an enrolment, and both the decrypted secrets and the printed secret of a generation
with its keyfile. -/
theorem freed_unwiped :
    (∃ s', enrolDeviceAndFreeInvocation (referenceHost referenceDevice) referenceInvocation
        (parsed referenceInvocation emptyWorld) = .ok () s' ∧
      ¬Continues (WipedFirst .keyBytes) (parsed referenceInvocation emptyWorld).events s'.events) ∧
    ∃ data s', printSecretConsumingInvocation (referenceHost referenceDevice)
        (referenceOpening (literal "correct horse")) [referenceDevice]
        (parsed (referenceOpening (literal "correct horse")) (storedWorld data)) =
          .ok .success s' ∧
      ∀ b ∈ [SecretBuffer.decrypted, SecretBuffer.secret], ¬Continues (WipedFirst b)
        (parsed (referenceOpening (literal "correct horse")) (storedWorld data)).events
        s'.events := by
  obtain ⟨s₁, henrolled⟩ := exists_enrolment
  obtain ⟨data, s₂, hgenerated⟩ := exists_generation
  have hpast : ∀ passphrase, (referenceOpening (literal "correct horse")).passphrase =
      some passphrase → exposed .invocationPassphrase
        (parsed (referenceOpening (literal "correct horse")) (storedWorld data)).events ⊆
          Finset.range passphrase.length := by
    intro passphrase hp
    obtain rfl := Option.some.inj hp
    simp [parsed, referenceOpening, filled, exposed, expose]
  obtain ⟨_, _, _, pins, answer, -, hstatus, hwipes⟩ :=
    printSecret_wipes_iff referenceCbor_followsFormat hgenerated hpast
  refine ⟨⟨s₁, henrolled, enrolDevice_frees_key henrolled⟩, data, s₂, hgenerated, fun b hb => ?_⟩
  rw [hwipes b]
  rcases List.mem_pair.mp hb with rfl | rfl
  · exact id
  · exact hstatus.mp rfl

end Khefin.OnHeap
