import Khefin.CleartextGrammar

/-! # What the decoder of the secrets keeps

Sized text becomes a NUL-terminated string and back. It survives when it has at
least one byte and none of them is NUL; everything else in an accepted blob
survives whatever it is. -/

namespace Khefin
open CLibrary ExitingPrograms

/-- What is required of the decoder on one input: what it accepts is serialized as it was. -/
structure LosesNothing (P : Platform) (decrypted : Bytes) : Prop where
  in_bounds : loadSecretsFromBytes P decrypted ≠ .error (.fault "cbor_array_get")
  reserialized : ∀ s, loadSecretsFromBytes P decrypted = .ok s →
    ∃ definite items, P.cbor.cborLoad decrypted = .ok (.array definite items) ∧ items.length = 4 ∧
      serializeSecretsToCborV1 s = .ok (.array true items)

/-- The first item of the input is an array of the secrets, with this text. -/
def HoldsText (P : Platform) (decrypted text : Bytes) : Prop :=
  ∃ definite credentialId salt, P.cbor.cborLoad decrypted =
    .ok (.array definite [.uint .w8 1, .text text, .bytes credentialId, .bytes salt])

/-! ## Text -/

/-- A text is read back from its string when it is not empty and has no NUL. -/
theorem relyingPartyIdOf_eq_some {text : Bytes} {r : CString}
    (h : relyingPartyIdOf text = some r) : r.bytes = text ↔ (0 : UInt8) ∉ text := by
  unfold relyingPartyIdOf at h
  split at h
  · simp at h
  · obtain rfl := Option.some.inj h
    constructor
    · intro hbytes
      rw [← hbytes]
      exact (cString text).noNul
    · exact cString_of_noNul

theorem relyingPartyIdOf_eq_none {text : Bytes} : relyingPartyIdOf text = none ↔ text = [] := by
  unfold relyingPartyIdOf
  split <;> simp_all

theorem serializeSecrets_iff {s : DeserializedSecrets} {text : Bytes} (hversion : s.version = 1)
    (hr : s.relyingPartyId = relyingPartyIdOf text) :
    serializeSecretsToCborV1 s = .ok (.array true
        [.uint .w8 1, .text text, .bytes s.credentialId, .bytes s.salt]) ↔
      text ≠ [] ∧ (0 : UInt8) ∉ text := by
  cases hid : relyingPartyIdOf text with
  | none =>
    have hempty := relyingPartyIdOf_eq_none.mp hid
    have hnone : s.relyingPartyId = none := hr.trans hid
    simp [serializeSecretsToCborV1, hnone, dereference, hempty]
  | some r =>
    have hne : text ≠ [] := fun h => by simp [relyingPartyIdOf_eq_none.mpr h] at hid
    rw [← relyingPartyIdOf_eq_some hid]
    simp [serializeSecretsToCborV1, hr, hid, dereference, secretsItems, hversion, hne]

/-! ## Blobs -/

section Blobs

variable {P : Platform} (hf : P.cbor.FollowsFormat) {decrypted : Bytes}
include hf

/-- The elements of an accepted blob, with the version they must have. -/
theorem load_of_accepted {s : DeserializedSecrets} (h : loadSecretsFromBytes P decrypted = .ok s) :
    ∃ definite text, P.cbor.cborLoad decrypted = .ok (.array definite
        [.uint .w8 1, .text text, .bytes s.credentialId, .bytes s.salt]) ∧
      s.version = 1 ∧ s.relyingPartyId = relyingPartyIdOf text ∧ HoldsText P decrypted text := by
  obtain ⟨definite, v, text, hload, hv, hversion, hr, -⟩ := loadSecretsFromBytes_eq_ok.mp h
  obtain ⟨r, hdecode⟩ := hf.load_sound hload
  have hlt : v < 256 := by
    have hencodable := (Cbor.decode_spec hdecode).1
    simp only [Cbor.Item.Encodable, Cbor.AllEncodable, Cbor.Width.size] at hencodable
    exact hencodable.2.1
  obtain rfl : v = 1 := by
    have hvalue := congrArg UInt8.toNat hv
    simpa [Nat.mod_eq_of_lt hlt] using hvalue
  exact ⟨definite, text, hload, hversion, hr, definite, s.credentialId, s.salt, hload⟩

omit hf in
/-- Nothing but the missing first element is fetched out of bounds. -/
theorem exits_deserializeSecrets {items : List Cbor.Item} :
    FailsIn (· ≠ .fault "cbor_array_get") (deserializeSecretsFromCborV1 P items) := by
  have hmalloc : ∀ n what, FailsIn (· ≠ .fault "cbor_array_get") (mallocOrExit P n what) :=
    fun n what => failsIn_stopIf fun _ => by simp
  have hbytes : ∀ what data, .bytes data ∈ items →
      FailsIn (· ≠ .fault "cbor_array_get") (mallocUnlessEmpty P data.length what) := by
    intro what data _
    unfold mallocUnlessEmpty
    split
    · exact failsIn_ok _
    · exact hmalloc _ _
  refine failsIn_bind (hmalloc _ _) fun _ _ => ?_
  refine failsIn_bind (failsIn_stopIf fun _ => by simp) fun _ hl => ?_
  rw [stopIf_eq_ok, not_not] at hl
  have hget : ∀ field < encryptedCountOfFields,
      FailsIn (· ≠ .fault "cbor_array_get") (cborArrayGet items field) :=
    fun field hfield => failsIn_cborArrayGet (hl ▸ hfield)
  have hwrong : ∀ format field, wrongFormat format field ≠ .fault "cbor_array_get" := by
    simp [wrongFormat]
  refine failsIn_bind (failsIn_uintField (hget _ (by decide)) (hwrong _ _)) fun _ _ => ?_
  refine failsIn_bind (failsIn_stopIf fun _ => by simp) fun _ _ => ?_
  refine failsIn_bind ?_ fun _ _ => ?_
  · refine failsIn_bind (hget _ (by decide)) fun i _ => ?_
    cases i with
    | text data =>
      dsimp only
      split
      · exact failsIn_ok _
      · exact failsIn_bind (hmalloc _ _) fun _ _ => failsIn_ok _
    | _ => exact failsIn_error (hwrong _ _)
  refine failsIn_bind (failsIn_bytestringField (hget _ (by decide)) (hbytes _) (hwrong _ _))
    fun _ _ => ?_
  refine failsIn_bind (failsIn_bytestringField (hget _ (by decide)) (hbytes _) (hwrong _ _))
    fun _ _ => ?_
  exact failsIn_ok _

theorem in_bounds_iff : loadSecretsFromBytes P decrypted ≠ .error (.fault "cbor_array_get") ↔
    ¬StartsWithEmptyArray decrypted := by
  constructor
  · rintro h ⟨definite, r, hr⟩
    have hload := hf.load_complete hr (by simp [IsFlat])
    have hitems : loadArray P decrypted []
        "Unable to deserialize secrets; is the data not CBOR-encoded? CBOR error code %d: %s"
        "Secrets have the wrong format (should be a CBOR array at root)" = .ok [] :=
      loadArray_eq_ok.mpr ⟨definite, hload⟩
    apply h
    rw [loadSecretsFromBytes, hitems]
    rfl
  · intro hne
    suffices hfails : FailsIn (· ≠ .fault "cbor_array_get") (loadSecretsFromBytes P decrypted) from
      fun h => hfails _ h rfl
    refine failsIn_bind ?_ fun items hitems => ?_
    · intro e he
      cases e with
      | exit status m => simp
      | fault operation =>
        have hexit := refuses_loadArray _ he
        exact hexit.elim
    · obtain ⟨definite, hload⟩ := loadArray_eq_ok.mp hitems
      obtain ⟨r, hr⟩ := hf.load_sound hload
      have hlength : 0 < items.length := by
        refine List.length_pos_of_ne_nil fun hempty => hne ⟨definite, r, ?_⟩
        rw [hr, hempty]
      refine failsIn_bind (failsIn_uintField (failsIn_cborArrayGet hlength) (by simp)) fun _ _ => ?_
      refine failsIn_bind (failsIn_stopIf fun _ => by simp) fun _ _ => ?_
      exact exits_deserializeSecrets

/-- Every blob of the secrets is accepted when memory is not short. -/
theorem accepted_of_holdsText
    (hm : P.Allocates (max sizeofDeserializedSecrets (decrypted.length + 1))) {text : Bytes}
    (h : HoldsText P decrypted text) :
    ∃ s definite, loadSecretsFromBytes P decrypted = .ok s ∧ s.version = 1 ∧
      s.relyingPartyId = relyingPartyIdOf text ∧ P.cbor.cborLoad decrypted = .ok (.array definite
        [.uint .w8 1, .text text, .bytes s.credentialId, .bytes s.salt]) := by
  obtain ⟨definite, c, k, hload⟩ := h
  obtain ⟨r, hdecode⟩ := hf.load_sound hload
  have hpayload := (Cbor.decode_spec hdecode).2
  simp only [Cbor.Item.payload, Cbor.payloadAll] at hpayload
  have hfits : ∀ n ≤ decrypted.length + 1, P.malloc n = true :=
    fun n hn => hm n (le_max_of_le_right hn)
  have hall : SecretsFit P text c k := ⟨hm _ (le_max_left _ _), fun _ => hfits _ (by omega),
    Or.inr (hfits _ (by omega)), Or.inr (hfits _ (by omega))⟩
  exact ⟨⟨1, relyingPartyIdOf text, c, k⟩, definite, loadSecretsFromBytes_eq_ok.mpr
    ⟨definite, 1, text, hload, rfl, rfl, rfl, hall⟩, rfl, rfl, hload⟩

end Blobs

/-- Nothing of an accepted input is lost, and nothing is fetched out of bounds, exactly when the
input does not start with an empty array and, if it holds secrets, their text has at least
one byte and no NUL. -/
theorem losesNothing_iff {P : Platform} (hf : P.cbor.FollowsFormat) {decrypted : Bytes}
    (hm : P.Allocates (max sizeofDeserializedSecrets (decrypted.length + 1))) :
    LosesNothing P decrypted ↔ ¬StartsWithEmptyArray decrypted ∧
      ∀ text, HoldsText P decrypted text → text ≠ [] ∧ (0 : UInt8) ∉ text := by
  constructor
  · intro h
    refine ⟨(in_bounds_iff hf).mp h.in_bounds, fun text htext => ?_⟩
    obtain ⟨s, _, hs, hversion, hr, hload⟩ := accepted_of_holdsText hf hm htext
    obtain ⟨definite, items, hitems, -, hserialized⟩ := h.reserialized s hs
    obtain ⟨-, rfl⟩ := Cbor.Item.array.inj (Except.ok.inj (hitems.symm.trans hload))
    exact (serializeSecrets_iff hversion hr).mp hserialized
  · rintro ⟨hne, htext⟩
    refine ⟨(in_bounds_iff hf).mpr hne, fun s hs => ?_⟩
    obtain ⟨definite, text, hload, hversion, hr, hholds⟩ := load_of_accepted hf hs
    exact ⟨definite, _, hload, rfl, (serializeSecrets_iff hversion hr).mpr (htext text hholds)⟩

/-- The blob of an array of secrets with this text. -/
def blobWithText (text : Bytes) : Bytes :=
  Cbor.encode (.array true [.uint .w8 1, .text text, .bytes [0xc1], .bytes [0x53]])

theorem load_blobWithText (text : Bytes) (h : text.length < sizeModulus) :
    referenceCbor.cborLoad (blobWithText text) =
      .ok (.array true [.uint .w8 1, .text text, .bytes [0xc1], .bytes [0x53]]) := by
  have hencodable : (Cbor.Item.array true
      [.uint .w8 1, .text text, .bytes [0xc1], .bytes [0x53]]).Encodable := by
    simpa [Cbor.Item.Encodable, Cbor.AllEncodable, Cbor.Width.size, sizeModulus] using h
  have hdecode := Cbor.decode_encode hencodable []
  rw [List.append_nil] at hdecode
  simp [referenceCbor, blobWithText, hdecode]

theorem losesNothing_plain :
    LosesNothing (referenceHost referenceDevice) (blobWithText [0x61, 0x62]) := by
  have hload := load_blobWithText [0x61, 0x62] (by decide)
  refine (losesNothing_iff referenceCbor_followsFormat ?_).mpr ⟨?_, ?_⟩
  · exact (referencePlatform_allocates _ _).mono (by decide)
  · rintro ⟨definite, r, hr⟩
    have hempty := referenceCbor_followsFormat.load_complete hr (by simp [IsFlat])
    simp [hload] at hempty
  · rintro text ⟨definite, c, k, htext⟩
    obtain ⟨-, hitems⟩ := Cbor.Item.array.inj (Except.ok.inj (hload.symm.trans htext))
    simp only [List.cons.injEq, Cbor.Item.text.injEq] at hitems
    rw [← hitems.2.1]
    decide

/-- A NUL ends the text early, an empty text is used as a NULL pointer, and an empty array is
read behind its end. -/
theorem not_losesNothing_odd :
    (∃ s, loadSecretsFromBytes (referenceHost referenceDevice) (blobWithText [0x61, 0, 0x62]) =
        .ok s ∧ serializeSecretsToCborV1 s =
          .ok (.array true [.uint .w8 1, .text [0x61], .bytes [0xc1], .bytes [0x53]])) ∧
    (∃ s, loadSecretsFromBytes (referenceHost referenceDevice) (blobWithText []) = .ok s ∧
      serializeSecretsToCborV1 s = .error (.fault "strlen")) ∧
    loadSecretsFromBytes (referenceHost referenceDevice) [0x80] =
      .error (.fault "cbor_array_get") ∧
    ¬LosesNothing (referenceHost referenceDevice) (blobWithText [0x61, 0, 0x62]) ∧
    ¬LosesNothing (referenceHost referenceDevice) (blobWithText []) ∧
    ¬LosesNothing (referenceHost referenceDevice) [0x80] := by
  have hnul : loadSecretsFromBytes (referenceHost referenceDevice) (blobWithText [0x61, 0, 0x62]) =
      .ok ⟨1, some (cString [0x61, 0, 0x62]), [0xc1], [0x53]⟩ := rfl
  have hnull : loadSecretsFromBytes (referenceHost referenceDevice) (blobWithText []) =
      .ok ⟨1, none, [0xc1], [0x53]⟩ := rfl
  have hempty : loadSecretsFromBytes (referenceHost referenceDevice) [0x80] =
      .error (.fault "cbor_array_get") := rfl
  refine ⟨⟨_, hnul, rfl⟩, ⟨_, hnull, rfl⟩, hempty, fun h => ?_, fun h => ?_,
    fun h => h.in_bounds hempty⟩
  · obtain ⟨definite, items, hload, -, hserialized⟩ := h.reserialized _ hnul
    have htext := load_blobWithText [0x61, 0, 0x62] (by decide)
    obtain ⟨-, rfl⟩ := Cbor.Item.array.inj (Except.ok.inj (hload.symm.trans htext))
    have hbytes : (cString [0x61, 0, 0x62]).bytes = [0x61] := rfl
    simp [serializeSecretsToCborV1, dereference, secretsItems, hbytes] at hserialized
  · obtain ⟨definite, items, -, -, hserialized⟩ := h.reserialized _ hnull
    simp [serializeSecretsToCborV1, dereference] at hserialized

end Khefin
