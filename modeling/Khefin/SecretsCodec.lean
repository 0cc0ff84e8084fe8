import Khefin.CborRoundTrip
import Khefin.Serialization

/-! # The secrets inside a keyfile

Their array is read back as it was written when the relying party id is not
empty, and parameters are built from them without loss. -/

namespace Khefin
open CLibrary ExitingPrograms

def IsAscii (s : CString) : Prop := ∀ b ∈ s.bytes, b < 128

theorem deserializeRelyingPartyId_eq_ok {P : Platform} {items : List Cbor.Item}
    {r : Option CString} : deserializeRelyingPartyId P items = .ok r ↔
      ∃ d, items[encryptedFieldRpId]? = some (.text d) ∧
        (d = [] ∧ r = none ∨ d ≠ [] ∧ P.malloc (d.length + 1) = true ∧ r = some (cString d)) := by
  simp only [deserializeRelyingPartyId, except_bind_eq_ok, cborArrayGet_eq_ok]
  constructor
  · rintro ⟨i, hi, h⟩
    cases i <;> simp only [reduceCtorEq] at h
    next d =>
      refine ⟨d, hi, ?_⟩
      split at h
      · next hd => exact Or.inl ⟨hd, (Except.ok.inj h).symm⟩
      · next hd =>
        simp only [except_bind_eq_ok, mallocOrExit_eq_ok] at h
        obtain ⟨_, hm, h⟩ := h
        exact Or.inr ⟨hd, hm, (Except.ok.inj h).symm⟩
  · rintro ⟨d, hi, ⟨rfl, rfl⟩ | ⟨hd, hm, rfl⟩⟩
    · exact ⟨_, hi, by simp⟩
    · exact ⟨_, hi, by simp [hd, mallocOrExit_of hm]⟩

/-- What a text of this content is kept as. -/
def relyingPartyIdOf (text : Bytes) : Option CString := if text = [] then none else some (cString text)

/-- Memory suffices for a structure with these strings. -/
def SecretsFit (P : Platform) (text credentialId salt : Bytes) : Prop :=
  P.malloc sizeofDeserializedSecrets = true ∧ (text ≠ [] → P.malloc (text.length + 1) = true) ∧
    (credentialId.length = 0 ∨ P.malloc credentialId.length = true) ∧
    (salt.length = 0 ∨ P.malloc salt.length = true)

theorem deserializeRelyingPartyId_text {P : Platform} {items : List Cbor.Item} {r : Option CString} :
    deserializeRelyingPartyId P items = .ok r ↔ ∃ text, items[1]? = some (.text text) ∧
      (text ≠ [] → P.malloc (text.length + 1) = true) ∧ r = relyingPartyIdOf text := by
  rw [deserializeRelyingPartyId_eq_ok]
  refine exists_congr fun text => and_congr_right fun _ => ?_
  unfold relyingPartyIdOf
  by_cases htext : text = []
  · simp [htext]
  · simp [htext]

/-- A blob is accepted exactly when its first item is an array of four elements of the right
types, and all but the text is kept as it is. -/
theorem loadSecretsFromBytes_eq_ok {P : Platform} {data : Bytes} {s : DeserializedSecrets} :
    loadSecretsFromBytes P data = .ok s ↔ ∃ definite version text,
      P.cbor.cborLoad data =
        .ok (.array definite
          [.uint .w8 version, .text text, .bytes s.credentialId, .bytes s.salt]) ∧
      UInt8.ofNat version = 1 ∧ s.version = 1 ∧ s.relyingPartyId = relyingPartyIdOf text ∧
      SecretsFit P text s.credentialId s.salt := by
  simp only [loadSecretsFromBytes, deserializeSecretsFromCborV1, except_bind_eq_ok, stopIf_eq_ok,
    uintField_eq_ok, bytestringField_eq_ok, deserializeRelyingPartyId_text, mallocOrExit_eq_ok,
    loadArray_eq_ok, not_not, except_pure, Except.ok.injEq]
  constructor
  · rintro ⟨items, ⟨definite, hload⟩, _, -, _, -, _, hm, _, hlen, v, h0, _, hv, r,
      ⟨text, h1, ht, rfl⟩, c, ⟨h2, hc⟩, k, ⟨h3, hk⟩, rfl⟩
    obtain ⟨i0, i1, i2, i3, rfl⟩ : ∃ a b c d, items = [a, b, c, d] := by
      match items, hlen with
      | [a, b, c, d], _ => exact ⟨a, b, c, d, rfl⟩
    simp only [encryptedFieldVersion, encryptedFieldCredentialId, encryptedFieldHmacSalt,
      List.getElem?_cons_zero, List.getElem?_cons_succ, Option.some.injEq] at h0 h1 h2 h3
    subst h0 h1 h2 h3
    exact ⟨definite, v, text, hload, hv, hv, rfl, hm, ht, hc, hk⟩
  · rintro ⟨definite, v, text, hload, hv, hversion, hr, hm, ht, hc, hk⟩
    refine ⟨_, ⟨definite, hload⟩, v, rfl, (), hv, (), hm, (), rfl, v, rfl, (), hv, s.relyingPartyId,
      ⟨text, rfl, ht, hr⟩, s.credentialId, ⟨rfl, hc⟩, s.salt, ⟨rfl, hk⟩, ?_⟩
    rw [hv, ← hversion]

/-- The secrets an accepted blob holds. -/
theorem loadSecretsFromBytes_spec {P : Platform} {data : Bytes} {s : DeserializedSecrets}
    (h : loadSecretsFromBytes P data = .ok s) : ∃ definite version text,
      P.cbor.cborLoad data =
        .ok (.array definite
          [.uint .w8 version, .text text, .bytes s.credentialId, .bytes s.salt]) ∧
      s.relyingPartyId = if text = [] then none else some (cString text) := by
  obtain ⟨definite, version, text, hload, -, -, hr, -⟩ := loadSecretsFromBytes_eq_ok.mp h
  exact ⟨definite, version, text, hload, hr⟩

theorem encodable_secretsItems {version : UInt8} {r : CString} {c s : Bytes}
    (hr : r.length < sizeModulus) (hc : c.length < sizeModulus) (hs : s.length < sizeModulus) :
    (Cbor.Item.array true (secretsItems version r c s)).Encodable := by
  have hv := version.toNat_lt
  simp only [secretsItems, Cbor.Item.Encodable, Cbor.AllEncodable, Cbor.Width.size,
    List.length_cons, List.length_nil, forall_const, and_true]
  simp only [sizeModulus, CString.length] at hr hc hs
  exact ⟨by omega, by omega, hr, hc, hs⟩

theorem length_le_encode_secrets (version : UInt8) (r : CString) (c s : Bytes) :
    r.length < (Cbor.encode (.array true (secretsItems version r c s))).length ∧
      c.length < (Cbor.encode (.array true (secretsItems version r c s))).length ∧
      s.length < (Cbor.encode (.array true (secretsItems version r c s))).length := by
  have hw : 0 < (Cbor.encodeWide 0 .w8 version.toNat).length := by
    unfold Cbor.encodeWide
    split <;> simp
  simp only [secretsItems, Cbor.encode, Cbor.encodeAll, Cbor.encodeString, List.length_append,
    CString.length]
  omega

/-- Secrets that were written are read back. -/
theorem loadSecretsFromBytes_encode {P : Platform} (hf : P.cbor.FollowsFormat) {r : CString}
    {c s : Bytes} (hne : r.bytes ≠ []) (ha : IsAscii r) {bound : ℕ} (hm : P.Allocates bound)
    (hb : bound < sizeModulus) (hs : sizeofDeserializedSecrets ≤ bound)
    (hl : (Cbor.encode (.array true (secretsItems 1 r c s))).length ≤ bound) :
    loadSecretsFromBytes P (Cbor.encode (.array true (secretsItems 1 r c s))) =
      .ok { version := 1, relyingPartyId := some r, credentialId := c, salt := s } := by
  obtain ⟨hr, hc, hk⟩ := length_le_encode_secrets 1 r c s
  have he : (Cbor.Item.array true (secretsItems 1 r c s)).Encodable :=
    encodable_secretsItems (by omega) (by omega) (by omega)
  have hd := Cbor.decode_encode he []
  rw [List.append_nil] at hd
  have hflat : IsFlat (.array true (secretsItems 1 r c s)) := by
    simpa [IsFlat, IsScalar, secretsItems, IsAscii] using ha
  have hload := hf.load_complete hd hflat
  refine loadSecretsFromBytes_eq_ok.mpr ⟨true, 1, r.bytes, hload, rfl, rfl, ?_, hm _ hs, ?_, ?_⟩
  · rw [relyingPartyIdOf, if_neg hne, cString_self]
  · exact fun _ => hm _ (by simp only [CString.length] at hr; omega)
  · exact ⟨Or.inr (hm _ (hc.le.trans hl)), Or.inr (hm _ (hk.le.trans hl))⟩

/-! ## Parameters from secrets -/

/-- Parameters carry the relying party id, credential id and salt of the secrets, and no PIN. -/
theorem parametersOfSecrets_spec {P : Platform} {s : DeserializedSecrets}
    {params : AuthenticatorParameters} (h : parametersOfSecrets P s = .ok params) :
    s.relyingPartyId = some params.relyingPartyId ∧ params.credentialId = s.credentialId ∧
      params.salt = s.salt ∧ params.authenticatorPin = none ∧
      params.clientDataHash = List.replicate clientDataHashSizeBytes 0x41 := by
  simp only [parametersOfSecrets, except_bind_eq_ok, strdupOrExit_eq_ok, except_pure,
    Except.ok.injEq] at h
  obtain ⟨p, hp, r, hr, _, ⟨-, rfl⟩, rfl⟩ := h
  simp only [allocateParametersExceptRpid, except_bind_eq_ok, except_pure, Except.ok.injEq] at hp
  obtain ⟨_, -, _, -, _, -, _, -, _, -, rfl⟩ := hp
  cases hs : s.relyingPartyId with
  | none => simp [hs, dereference] at hr
  | some q =>
    obtain rfl : q = r := by simpa [hs, dereference] using hr
    exact ⟨rfl, rfl, rfl, rfl, rfl⟩

theorem parametersOfSecrets_of {P : Platform} {s : DeserializedSecrets} {r : CString} {bound : ℕ}
    (hm : P.Allocates bound) (hb : sizeofAuthenticatorParameters ≤ bound)
    (hr : s.relyingPartyId = some r) (hrl : r.length < bound) (hc : s.credentialId.length ≤ bound)
    (hs : s.salt.length ≤ bound) : ∃ params, parametersOfSecrets P s = .ok params := by
  simp only [sizeofAuthenticatorParameters] at hb
  have hp : P.malloc sizeofAuthenticatorParameters = true := hm _ hb
  have h2 : P.malloc 2 = true := hm _ (by omega)
  have hh : P.malloc clientDataHashSizeBytes = true := hm _ (by simp [clientDataHashSizeBytes]; omega)
  simp [parametersOfSecrets, allocateParametersExceptRpid, mallocOrExit_of hp,
    mallocUnlessEmpty_of (hm _ hc), mallocUnlessEmpty_of (hm _ hs), mallocOrExit_of hh, stopIf, h2,
    hr, dereference, strdupOrExit_of (hm _ hrl)]

end Khefin
