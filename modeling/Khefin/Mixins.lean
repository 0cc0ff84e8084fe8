import Khefin.KeyfileAgreement
import Khefin.SearchRuns

/-! # What a mixin changes

The salt of a keyfile is masked with a hash of the mixin. The salts that two mixins
lead to differ exactly when their hashes do, and nothing else in a request depends
on the mixin. -/

namespace Khefin
open CLibrary ExitingPrograms

/-! ## Masks -/

section Masks

variable {l m m' : Bytes}

theorem xor_mask_cancel (h : l.length = m.length) :
    List.zipWith (· ^^^ ·) (List.zipWith (· ^^^ ·) l m) m = l := by
  induction l generalizing m with
  | nil => rfl
  | cons a l ih =>
    cases m with
    | nil => simp at h
    | cons b m =>
      have hab : a ^^^ b ^^^ b = a := by rw [UInt8.xor_assoc, UInt8.xor_self, UInt8.xor_zero]
      simp only [List.zipWith_cons_cons, hab, ih (Nat.succ.inj h)]

theorem xor_mask_inj (h : l.length = m.length) (h' : l.length = m'.length) :
    List.zipWith (· ^^^ ·) l m = List.zipWith (· ^^^ ·) l m' ↔ m = m' := by
  induction l generalizing m m' with
  | nil => simp_all [eq_comm]
  | cons a l ih =>
    cases m with
    | nil => simp at h
    | cons b m =>
      cases m' with
      | nil => simp at h'
      | cons b' m' => simp [ih (Nat.succ.inj h) (Nat.succ.inj h')]

theorem xor_mask_zero (l : Bytes) :
    List.zipWith (· ^^^ ·) l (List.replicate l.length 0) = l := by
  induction l with
  | nil => rfl
  | cons a l ih => simp [List.replicate_succ, ih]

end Masks

/-! ## Opening with a mixin -/

def InvocationState.withMixin (i : InvocationState) (mixin : Option CString) : InvocationState :=
  { i with mixin }

/-- `H_n`: the hash of a mixin in `n` bytes. -/
def hashedMixin (P : Platform) (n : ℕ) (mixin : CString) : Bytes :=
  match P.sodium.cryptoGenerichash n mixin.bytes with
  | some hash => hash.toList
  | none => []

/-- The parameters with the hash mixed into the salt. -/
def AuthenticatorParameters.mixed (params : AuthenticatorParameters) (hash : Bytes) :
    AuthenticatorParameters := { params with salt := List.zipWith (· ^^^ ·) params.salt hash }

section Opening

variable {P : Platform} {invocation : InvocationState} {w w₁ : World} {c : DeserializedCleartext}
  {params : AuthenticatorParameters}

/-- The mixin is looked at last. -/
theorem openKeyfile_withMixin (P : Platform) (invocation : InvocationState) (mixin : CString) :
    openKeyfile P (invocation.withMixin (some mixin)) =
      openKeyfile P (invocation.withMixin none) >>= fun r =>
        lift (mixIntoSalt P r.2 (some mixin)) >>= fun params => pure (r.1, params) := by
  have hlast : ∀ decrypted, (lift (parametersOfDecrypted P decrypted (some mixin)) :
      Program AuthenticatorParameters) = lift (parametersOfDecrypted P decrypted none) >>=
        fun params => lift (mixIntoSalt P params (some mixin)) := by
    intro decrypted
    rw [← lift_bind]
    simp [parametersOfDecrypted, mixIntoSalt]
  simp only [openKeyfile, InvocationState.withMixin,
    buildAuthenticatorParametersFromDeserializedCleartextAndKeyAndMixin, bind_assoc, pure_bind, hlast]

theorem hashedMixin_length {n : ℕ} {mixin : CString}
    (h : P.sodium.cryptoGenerichash n mixin.bytes ≠ none) : (hashedMixin P n mixin).length = n := by
  unfold hashedMixin
  split
  · exact Vector.length_toList
  · contradiction

theorem mixIntoSalt_of {mixin : CString} (hm : P.malloc params.salt.length = true)
    (h : P.sodium.cryptoGenerichash params.salt.length mixin.bytes ≠ none) :
    mixIntoSalt P params (some mixin) =
      .ok (params.mixed (hashedMixin P params.salt.length mixin)) := by
  cases hhash : P.sodium.cryptoGenerichash params.salt.length mixin.bytes with
  | none => exact absurd hhash h
  | some hash => simp [mixIntoSalt, mallocOrExit_of hm, hhash, AuthenticatorParameters.mixed, hashedMixin]

/-- A keyfile that opens without a mixin opens with one. -/
theorem openKeyfile_of_mixin (hopen : openKeyfile P (invocation.withMixin none) w = .ok (c, params) w₁)
    {mixin : CString} (hm : P.malloc params.salt.length = true)
    (h : P.sodium.cryptoGenerichash params.salt.length mixin.bytes ≠ none) :
    openKeyfile P (invocation.withMixin (some mixin)) w =
      .ok (c, params.mixed (hashedMixin P params.salt.length mixin)) w₁ := by
  rw [openKeyfile_withMixin, bind_of_ok hopen, mixIntoSalt_of hm h]
  rfl

end Opening

/-! ## What is asked -/

/-- The run asks some device with this request. -/
def Sends (P : Platform) (invocation : InvocationState) (w : World) (devices : List Authenticator)
    (request : AssertionRequest) : Prop :=
  ∃ slot, .fidoDevGetAssert slot request ∈
    (finalState (printSecretConsumingInvocation P invocation devices w)).trace.drop w.trace.length

/-- A request is for these parameters, whatever the PIN. -/
def Event.AsksFor (params : AuthenticatorParameters) : Event → Prop
  | .fidoDevGetAssert _ request => request = { params.assertionRequest with pin := request.pin }
  | _ => True

section Requests

variable {P : Platform} {invocation : InvocationState} {w w₁ : World} {c : DeserializedCleartext}
  {params : AuthenticatorParameters}

theorem Traces.forall_new {S : Event → Prop} {w w' : World} (h : Traces S w w') :
    ∀ e ∈ w'.trace.drop w.trace.length, S e := by
  obtain ⟨events, ht, he⟩ := h
  rw [ht, List.drop_left]
  exact he

theorem frames_asksFor (params : AuthenticatorParameters) : Frames (Traces (Event.AsksFor params)) where
  idle _ _ h := h.2.2.mono fun e he => by cases e <;> trivial
  printed w _ := refl_of (Traces (Event.AsksFor params)) w

theorem searchInvariant_asksFor (P : Platform) (invocation : InvocationState)
    (c : DeserializedCleartext) (devices : List Authenticator) (params : AuthenticatorParameters) :
    SearchInvariant P invocation c devices (Traces (Event.AsksFor params))
      fun _ shared => shared = { params with authenticatorPin := shared.authenticatorPin } where
  asked _ _ _ shared _ shared' w' _ hI hpin := by
    have hshared : shared' = { params with authenticatorPin := shared'.authenticatorPin } := by
      rw [pinForGeneration_spec hpin, hI]
    refine traces_record ?_ w'
    simp only [Event.AsksFor]
    rw [hshared]
    rfl
  passed _ _ _ _ _ _ _ _ hI hturn := by rw [tryDevice_params hturn, hI]

/-- Every request of a run is for the parameters it opened. -/
theorem request_of_sends (hopen : openKeyfile P invocation w = .ok (c, params) w₁)
    {devices : List Authenticator} {request : AssertionRequest}
    (h : Sends P invocation w devices request) :
    request = { params.assertionRequest with pin := request.pin } := by
  have hquiet : Traces (Event.AsksFor params) w w₁ :=
    ((quietly_openKeyfile P invocation).of_ok hopen).2.2.mono fun e he => by cases e <;> trivial
  have hfirst : params = { params with authenticatorPin := params.authenticatorPin } := rfl
  have hsearch := (searchInvariant_asksFor P invocation c devices params).keeps
    (frames_asksFor params) hfirst w₁
  have hend : finalState (printSecretConsumingInvocation P invocation devices w) =
      finalState (searchDevices P invocation c 0 devices params w₁) := by
    cases hs : searchDevices P invocation c 0 devices params w₁ with
    | error h w' => rw [printSecret_of_search_error hopen hs, finalState_error, finalState_error]
    | ok found w' => rw [printSecret_of_search_ok hopen hs, finalState_ok, finalState_ok]
  obtain ⟨slot, hmem⟩ := h
  rw [hend] at hmem
  exact (trans_of (Traces (Event.AsksFor params)) hquiet hsearch).forall_new _ hmem

end Requests

/-! ## Two runs -/

/-- What is required of a keyfile whose salt is that of `params` when it is opened with mixins. -/
structure MixinSeparates (P : Platform) (invocation : InvocationState) (w w₁ : World)
    (c : DeserializedCleartext) (params : AuthenticatorParameters) : Prop where
  opens : ∀ mixin, ∃ mixed, openKeyfile P (invocation.withMixin (some mixin)) w = .ok (c, mixed) w₁ ∧
    mixed = { params with salt := mixed.salt } ∧ mixed.salt.length = params.salt.length ∧
    mixIntoSalt P mixed (some mixin) = .ok params
  unmixed : ∀ devices request, Sends P (invocation.withMixin none) w devices request →
    request.salt = params.salt
  masked : ∀ mixin devices request, Sends P (invocation.withMixin (some mixin)) w devices request →
    ∀ i < params.salt.length, ∃ a b, params.salt[i]? = some a ∧
      (hashedMixin P params.salt.length mixin)[i]? = some b ∧ request.salt[i]? = some (a ^^^ b)
  separates : ∀ mixin mixin' devices devices' request request',
    Sends P (invocation.withMixin (some mixin)) w devices request →
    Sends P (invocation.withMixin (some mixin')) w devices' request' →
    (request.salt = request'.salt ↔
      hashedMixin P params.salt.length mixin = hashedMixin P params.salt.length mixin')
  neutral : ∀ mixin devices devices' request request',
    Sends P (invocation.withMixin (some mixin)) w devices request →
    Sends P (invocation.withMixin none) w devices' request' →
    (request.salt = request'.salt ↔
      ∀ b ∈ hashedMixin P params.salt.length mixin, b = 0)
  frame : ∀ mixin devices devices' request request',
    Sends P (invocation.withMixin (some mixin)) w devices request →
    Sends P (invocation.withMixin none) w devices' request' →
    request = { request' with salt := request.salt, pin := request.pin } ∧
      request.salt.length = request'.salt.length

theorem eq_replicate_zero_iff {l : Bytes} {n : ℕ} (h : l.length = n) :
    l = List.replicate n 0 ↔ ∀ b ∈ l, b = 0 := by
  rw [List.eq_replicate_iff]
  exact ⟨fun he => he.2, fun hall => ⟨h, hall⟩⟩

section Mixing

variable {P : Platform} {invocation : InvocationState} {w w₁ : World} {c : DeserializedCleartext}
  {params : AuthenticatorParameters}

theorem plain_of_sends (hopen : openKeyfile P (invocation.withMixin none) w = .ok (c, params) w₁)
    {devices : List Authenticator} {request : AssertionRequest}
    (h : Sends P (invocation.withMixin none) w devices request) :
    request = { params.assertionRequest with pin := request.pin } ∧ request.salt = params.salt := by
  have hrequest := request_of_sends hopen h
  exact ⟨hrequest, by rw [hrequest]; rfl⟩

/-- The salt of a request made with a mixin, and all the rest of it. -/
theorem mixed_of_sends (hopen : openKeyfile P (invocation.withMixin none) w = .ok (c, params) w₁)
    {mixin : CString} (hm : P.malloc params.salt.length = true)
    (hsome : P.sodium.cryptoGenerichash params.salt.length mixin.bytes ≠ none)
    {devices : List Authenticator} {request : AssertionRequest}
    (h : Sends P (invocation.withMixin (some mixin)) w devices request) :
    request = { params.assertionRequest with salt := request.salt, pin := request.pin } ∧
      request.salt =
        List.zipWith (· ^^^ ·) params.salt (hashedMixin P params.salt.length mixin) := by
  have hrequest := request_of_sends (openKeyfile_of_mixin hopen hm hsome) h
  constructor <;> rw [hrequest] <;> rfl

/-- Mixing in the same hash again gives back what was there before. -/
theorem mixIntoSalt_mixed {mixin : CString} (hm : P.malloc params.salt.length = true)
    (hsome : P.sodium.cryptoGenerichash params.salt.length mixin.bytes ≠ none) :
    mixIntoSalt P (params.mixed (hashedMixin P params.salt.length mixin)) (some mixin) =
      .ok params := by
  have hlength := hashedMixin_length hsome
  have hsize : (params.mixed (hashedMixin P params.salt.length mixin)).salt.length =
      params.salt.length := by
    rw [AuthenticatorParameters.mixed, List.length_zipWith, hlength, Nat.min_self]
  rw [← hsize] at hm hsome
  rw [mixIntoSalt_of hm hsome, hsize]
  simp only [AuthenticatorParameters.mixed, xor_mask_cancel hlength.symm]

/-- Mixing masks the salt byte by byte and does it once for each hash, and touches nothing else. -/
theorem mixin_separates (hopen : openKeyfile P (invocation.withMixin none) w = .ok (c, params) w₁)
    (hpos : 1 ≤ params.salt.length) (hle : params.salt.length ≤ 64)
    (hhash : ∀ n input, 1 ≤ n → n ≤ 64 → P.sodium.cryptoGenerichash n input ≠ none)
    (hm : P.malloc params.salt.length = true) : MixinSeparates P invocation w w₁ c params := by
  have hsome : ∀ mixin : CString,
      P.sodium.cryptoGenerichash params.salt.length mixin.bytes ≠ none :=
    fun mixin => hhash _ _ hpos hle
  have hlength : ∀ mixin, (hashedMixin P params.salt.length mixin).length = params.salt.length :=
    fun mixin => hashedMixin_length (hsome mixin)
  have hsize : ∀ mixin, (List.zipWith (· ^^^ ·) params.salt
      (hashedMixin P params.salt.length mixin)).length = params.salt.length := by
    intro mixin
    rw [List.length_zipWith, hlength mixin, Nat.min_self]
  constructor
  case opens =>
    intro mixin
    exact ⟨_, openKeyfile_of_mixin hopen hm (hsome mixin), rfl, hsize mixin,
      mixIntoSalt_mixed hm (hsome mixin)⟩
  case unmixed =>
    intro devices request h
    exact (plain_of_sends hopen h).2
  case masked =>
    intro mixin devices request h i hi
    have hi' : i < (hashedMixin P params.salt.length mixin).length := (hlength mixin).symm ▸ hi
    refine ⟨_, _, List.getElem?_eq_getElem hi, List.getElem?_eq_getElem hi', ?_⟩
    rw [(mixed_of_sends hopen hm (hsome mixin) h).2, List.getElem?_zipWith,
      List.getElem?_eq_getElem hi, List.getElem?_eq_getElem hi']
  case separates =>
    intro mixin mixin' devices devices' request request' h h'
    rw [(mixed_of_sends hopen hm (hsome mixin) h).2, (mixed_of_sends hopen hm (hsome mixin') h').2]
    exact xor_mask_inj (hlength mixin).symm (hlength mixin').symm
  case neutral =>
    intro mixin devices devices' request request' h h'
    rw [(mixed_of_sends hopen hm (hsome mixin) h).2, (plain_of_sends hopen h').2,
      ← eq_replicate_zero_iff (hlength mixin)]
    have hzero := xor_mask_inj (hlength mixin).symm (List.length_replicate (a := (0 : UInt8))).symm
    rwa [xor_mask_zero] at hzero
  case frame =>
    intro mixin devices devices' request request' h h'
    obtain ⟨hrequest, hsalt⟩ := mixed_of_sends hopen hm (hsome mixin) h
    obtain ⟨hrequest', hsalt'⟩ := plain_of_sends hopen h'
    refine ⟨?_, by rw [hsalt, hsalt', hsize mixin]⟩
    rw [hrequest, hrequest']

end Mixing

/-! ## A keyfile opened with mixins -/

/-- A hash that tells mixins apart by their length. -/
def mixinSodium : Sodium :=
  { referenceBox.sodium with
    cryptoGenerichash := fun n input => some (Vector.replicate n (UInt8.ofNat input.length)) }

def mixinHost : Platform := { referenceHost referenceDevice with sodium := mixinSodium }

/-- The salt of an opened keyfile. -/
def openedSalt (P : Platform) (invocation : InvocationState) (w : World) : Option Bytes :=
  match openKeyfile P invocation w with
  | .ok (_, params) _ => some params.salt
  | .error _ _ => none

theorem mixin_separates_reference : ∃ c params w₁,
    params.salt = List.replicate saltSizeBytes 0x53 ∧
    MixinSeparates mixinHost (referenceOpening (literal "correct horse"))
      (storedWorld (Cbor.encode (serializeCleartextToCborV1 referenceKeyfile))) w₁ c params := by
  have hopened : openedSalt mixinHost ((referenceOpening (literal "correct horse")).withMixin none)
      (storedWorld (Cbor.encode (serializeCleartextToCborV1 referenceKeyfile))) =
        some (List.replicate saltSizeBytes 0x53) := by decide +kernel
  unfold openedSalt at hopened
  split at hopened
  · next c params w₁ hopen =>
    have hsalt := Option.some.inj hopened
    have hlength : params.salt.length = saltSizeBytes := by rw [hsalt, List.length_replicate]
    exact ⟨c, params, w₁, hsalt, mixin_separates hopen (hlength ▸ by decide) (hlength ▸ by decide)
      (fun _ _ _ _ => Option.some_ne_none _) (hlength ▸ by decide)⟩
  · simp at hopened

end Khefin
