import Khefin.ReferencePlatform
import Khefin.Serialization

/-! # The keyfile codec loses nothing

A file loads as a structure exactly when its first item is the array of that
structure's fields, so writing what was loaded, or loading what was written,
gives the structure back. -/

namespace Khefin
open CLibrary ExitingPrograms

/-- What a version 1 file can hold. -/
structure DeserializedCleartext.IsV1 (c : DeserializedCleartext) : Prop where
  version : c.version = serializationVersion
  nonneg : 0 ≤ c.algorithm
  lt : c.algorithm < 65536

def DeserializedCleartext.byteStrings (c : DeserializedCleartext) : List Bytes :=
  [c.deviceAaguid, c.kdfSalt, c.nonce, c.encryptedData]

/-- Memory suffices for the structure and its byte strings. -/
def DeserializedCleartext.Fits (c : DeserializedCleartext) (P : Platform) : Prop :=
  P.malloc sizeofDeserializedCleartext = true ∧
    ∀ b ∈ c.byteStrings, b.length = 0 ∨ P.malloc b.length = true

/-- Every byte string has a length in `size_t`. -/
def DeserializedCleartext.Sized (c : DeserializedCleartext) : Prop :=
  ∀ b ∈ c.byteStrings, b.length < sizeModulus

/-! ## Fields -/

theorem uint16OfInt_cast {n : ℤ} (h : 0 ≤ n) (hn : n < 65536) : (uint16OfInt n : ℤ) = n := by
  simp only [uint16OfInt]
  omega

theorem uint16OfInt_natCast {n : ℕ} (h : n < 65536) : uint16OfInt n = n := by
  simp only [uint16OfInt]
  omega

theorem uint16OfInt_lt (n : ℤ) : uint16OfInt n < 65536 := by
  simp only [uint16OfInt]
  omega

private theorem list_of_length_eight {α : Type} {l : List α} (h : l.length = 8) :
    ∃ a b c d e f g i, l = [a, b, c, d, e, f, g, i] := by
  match l, h with
  | [a, b, c, d, e, f, g, i], _ => exact ⟨a, b, c, d, e, f, g, i, rfl⟩

theorem deserialize_cleartextItems {P : Platform} {c : DeserializedCleartext} (hv : c.IsV1)
    (hm : c.Fits P) : deserializeCleartextFromCborV1 P (cleartextItems c) = .ok c := by
  obtain ⟨hs, hb⟩ := hm
  simp only [DeserializedCleartext.byteStrings, List.mem_cons, List.not_mem_nil, or_false,
    forall_eq_or_imp, forall_eq] at hb
  obtain ⟨ha, hk, hn, he⟩ := hb
  have hversion := hv.version
  simp only [deserializeCleartextFromCborV1, except_bind_eq_ok, mallocOrExit_eq_ok, stopIf_eq_ok,
    uintField_eq_ok, bytestringField_eq_ok]
  refine ⟨(), hs, (), by simp [cleartextItems, clearCountOfFields], c.version.toNat, rfl, (),
    by simp [hversion], c.deviceAaguid, ⟨rfl, ha⟩, c.kdfSalt, ⟨rfl, hk⟩, c.opslimit.toNat, rfl,
    c.memlimit.toNat, rfl, uint16OfInt c.algorithm, rfl, c.nonce, ⟨rfl, hn⟩, c.encryptedData,
    ⟨rfl, he⟩, ?_⟩
  simp [uint16OfInt_cast hv.nonneg hv.lt]

theorem deserialize_spec {P : Platform} {items : List Cbor.Item} {c : DeserializedCleartext}
    (he : ∀ i ∈ items, i.Encodable) (h : deserializeCleartextFromCborV1 P items = .ok c) :
    items = cleartextItems c ∧ c.IsV1 ∧ c.Fits P := by
  simp only [deserializeCleartextFromCborV1, except_bind_eq_ok, mallocOrExit_eq_ok, stopIf_eq_ok,
    uintField_eq_ok, bytestringField_eq_ok, not_not, except_pure, Except.ok.injEq] at h
  obtain ⟨_, hs, _, hl, v, h0, _, hv, a, ⟨h1, ha⟩, k, ⟨h2, hk⟩, o, h3, m, h4, g, h5, n, ⟨h6, hn⟩,
    e, ⟨h7, hd⟩, rfl⟩ := h
  obtain ⟨i0, i1, i2, i3, i4, i5, i6, i7, rfl⟩ := list_of_length_eight hl
  simp only [clearFieldVersion, clearFieldDeviceAaguid, clearFieldKdfSalt, clearFieldOpslimit,
    clearFieldMemlimit, clearFieldAlgorithm, clearFieldNonce, clearFieldEncryptedData,
    List.getElem?_cons_zero, List.getElem?_cons_succ, Option.some.injEq] at h0 h1 h2 h3 h4 h5 h6 h7
  subst h0 h1 h2 h3 h4 h5 h6 h7
  have hve : v < 256 := by simpa [Cbor.Item.Encodable, Cbor.Width.size] using he (.uint .w8 v) (by simp)
  have hoe : o < 2 ^ 64 := by
    simpa [Cbor.Item.Encodable, Cbor.Width.size] using he (.uint .w64 o) (by simp)
  have hme : m < 2 ^ 64 := by
    simpa [Cbor.Item.Encodable, Cbor.Width.size] using he (.uint .w64 m) (by simp)
  have hge : g < 65536 := by
    simpa [Cbor.Item.Encodable, Cbor.Width.size] using he (.uint .w16 g) (by simp)
  refine ⟨?_, ⟨hv, by simp, by simpa using hge⟩, hs, ?_⟩
  · simp [cleartextItems, uint16OfInt_natCast hge, Nat.mod_eq_of_lt hve]
    omega
  · simp only [DeserializedCleartext.byteStrings, List.mem_cons, List.not_mem_nil, or_false,
      forall_eq_or_imp, forall_eq]
    exact ⟨ha, hk, hn, hd⟩

/-! ## Items -/

theorem encodable_serializeCleartextToCborV1 {c : DeserializedCleartext} :
    (serializeCleartextToCborV1 c).Encodable ↔ c.Sized := by
  have hv := c.version.toNat_lt
  have ho := c.opslimit.toNat_lt
  have hm := c.memlimit.toNat_lt
  have hg := uint16OfInt_lt c.algorithm
  simp only [serializeCleartextToCborV1, cleartextItems, Cbor.Item.Encodable, Cbor.AllEncodable,
    DeserializedCleartext.Sized, DeserializedCleartext.byteStrings, sizeModulus, Cbor.Width.size,
    List.mem_cons, List.not_mem_nil, or_false, forall_eq_or_imp, forall_eq, List.length_cons,
    List.length_nil, forall_const, and_true]
  constructor
  · rintro ⟨-, -, ha, hk, -, -, -, hn, he⟩
    exact ⟨ha, hk, hn, he⟩
  · rintro ⟨ha, hk, hn, he⟩
    exact ⟨by omega, by omega, ha, hk, by omega, by omega, by omega, hn, he⟩

theorem length_le_encode {c : DeserializedCleartext} {b : Bytes} (h : b ∈ c.byteStrings) :
    b.length ≤ (Cbor.encode (serializeCleartextToCborV1 c)).length := by
  simp only [serializeCleartextToCborV1, cleartextItems, Cbor.encode, Cbor.encodeAll,
    Cbor.encodeString, List.length_append]
  simp only [DeserializedCleartext.byteStrings, List.mem_cons, List.not_mem_nil, or_false] at h
  rcases h with rfl | rfl | rfl | rfl <;> omega

/-- The byte strings of a file are parts of it. -/
theorem length_le_of_decode {data r : Bytes} {definite : Bool} {c : DeserializedCleartext}
    (h : Cbor.decode data = some (.array definite (cleartextItems c), r)) {b : Bytes}
    (hb : b ∈ c.byteStrings) : b.length ≤ data.length := by
  have hp := (Cbor.decode_spec h).2
  simp only [Cbor.Item.payload, Cbor.payloadAll, cleartextItems] at hp
  simp only [DeserializedCleartext.byteStrings, List.mem_cons, List.not_mem_nil, or_false] at hb
  rcases hb with rfl | rfl | rfl | rfl <;> omega

theorem isFlat_serializeCleartextToCborV1 (c : DeserializedCleartext) (definite : Bool) :
    IsFlat (.array definite (cleartextItems c)) := by
  simp [IsFlat, IsScalar, cleartextItems]

/-! ## Files -/

/-- A file loads exactly when its first item is the array of the fields loaded. -/
theorem loadCleartext_eq_ok {P : Platform} (hf : P.cbor.FollowsFormat) {f : EncodedFile}
    {c : DeserializedCleartext} : loadCleartext P f = .ok c ↔
      (∃ definite r, Cbor.decode f.data = some (.array definite (cleartextItems c), r)) ∧
        c.IsV1 ∧ c.Fits P := by
  simp only [loadCleartext, except_bind_eq_ok, loadArray_eq_ok, uintField_eq_ok, stopIf_eq_ok]
  constructor
  · rintro ⟨items, ⟨definite, hl⟩, _, -, _, -, hd⟩
    obtain ⟨r, hr⟩ := hf.load_sound hl
    have he := (Cbor.decode_spec hr).1
    rw [Cbor.Item.Encodable, Cbor.allEncodable_iff] at he
    obtain ⟨rfl, hv, hm⟩ := deserialize_spec he.2 hd
    exact ⟨⟨definite, r, hr⟩, hv, hm⟩
  · rintro ⟨⟨definite, r, hr⟩, hv, hm⟩
    have hl := hf.load_complete hr (isFlat_serializeCleartextToCborV1 c definite)
    exact ⟨_, ⟨definite, hl⟩, c.version.toNat, rfl, (), by simp [hv.version, serializationVersion],
      deserialize_cleartextItems hv hm⟩

theorem sized_of_loadCleartext {P : Platform} (hf : P.cbor.FollowsFormat) {f : EncodedFile}
    {c : DeserializedCleartext} (h : loadCleartext P f = .ok c) : c.Sized := by
  obtain ⟨⟨definite, r, hr⟩, -, -⟩ := (loadCleartext_eq_ok hf).mp h
  have he := (Cbor.decode_spec hr).1
  rw [← encodable_serializeCleartextToCborV1]
  exact ⟨by simp [cleartextItems], he.2⟩

theorem writeCleartext_spec {P : Platform} (hf : P.cbor.FollowsFormat) {c : DeserializedCleartext}
    {path : CString} {f : EncodedFile} (h : writeCleartext P c path = .ok f) :
    f.path = path ∧ f.data = Cbor.encode (serializeCleartextToCborV1 c) := by
  simp only [writeCleartext, except_bind_eq_ok, strdupOrExit_eq_ok] at h
  obtain ⟨_, -, _, ⟨-, rfl⟩, h⟩ := h
  cases hs : P.cbor.cborSerializeAlloc (serializeCleartextToCborV1 c) with
  | none => simp [hs, errx] at h
  | some data =>
    obtain rfl : _ = f := by simpa [hs] using h
    exact ⟨rfl, hf.serialize_sound hs⟩

theorem writeCleartext_of {P : Platform} (hf : P.cbor.FollowsFormat) {c : DeserializedCleartext}
    (hc : c.Sized) {path : CString} (hs : P.malloc sizeofEncodedFile = true)
    (hp : P.malloc (path.length + 1) = true) :
    writeCleartext P c path =
      .ok { path, data := Cbor.encode (serializeCleartextToCborV1 c) } := by
  have he := hf.serialize_complete (encodable_serializeCleartextToCborV1.mpr hc)
  simp [writeCleartext, mallocOrExit_of hs, strdupOrExit_of hp, he]

theorem loadCleartext_encode {P : Platform} (hf : P.cbor.FollowsFormat)
    {c : DeserializedCleartext} (hv : c.IsV1) (hc : c.Sized) (hm : c.Fits P) (path : CString) :
    loadCleartext P { path, data := Cbor.encode (serializeCleartextToCborV1 c) } = .ok c := by
  have hd := Cbor.decode_encode (encodable_serializeCleartextToCborV1.mpr hc) []
  rw [List.append_nil] at hd
  exact (loadCleartext_eq_ok hf).mpr ⟨⟨true, [], hd⟩, hv, hm⟩

/-- Writing and loading a structure of the format gives it back, and so does loading any
file that is accepted, writing what it holds and loading that. -/
theorem keyfile_codec_round_trips {P : Platform} (hf : P.cbor.FollowsFormat) {path : CString}
    (hs : P.malloc sizeofEncodedFile = true) (hp : P.malloc (path.length + 1) = true) :
    (∀ c : DeserializedCleartext, c.version = 1 → 0 ≤ c.algorithm → c.algorithm ≤ 65535 →
      c.Sized → c.Fits P →
      ∃ f, writeCleartext P c path = .ok f ∧ loadCleartext P f = .ok c) ∧
    ∀ b c, loadCleartext P b = .ok c →
      ∃ f, writeCleartext P c path = .ok f ∧ loadCleartext P f = loadCleartext P b := by
  constructor
  · intro c hv hn hl hc hm
    have hv1 : c.IsV1 := ⟨hv, hn, by omega⟩
    exact ⟨_, writeCleartext_of hf hc hs hp, loadCleartext_encode hf hv1 hc hm path⟩
  · intro b c h
    obtain ⟨-, hv, hm⟩ := (loadCleartext_eq_ok hf).mp h
    have hc := sized_of_loadCleartext hf h
    exact ⟨_, writeCleartext_of hf hc hs hp, by rw [h, loadCleartext_encode hf hv hc hm path]⟩

/-- Empty byte strings and the largest integers, as one structure. -/
def extremeCleartext : DeserializedCleartext where
  version := 1
  deviceAaguid := []
  kdfSalt := []
  opslimit := 18446744073709551615
  memlimit := 18446744073709551615
  algorithm := 65535
  nonce := []
  encryptedData := [0]

theorem keyfile_codec_round_trips_extreme :
    ∃ f, writeCleartext (referenceHost referenceDevice) extremeCleartext (literal "keyfile") = .ok f ∧
      loadCleartext (referenceHost referenceDevice) f = .ok extremeCleartext := by
  have hpath : (literal "keyfile").length + 1 ≤ ptrdiffMax := by decide
  refine (keyfile_codec_round_trips (P := referenceHost referenceDevice)
    referenceCbor_followsFormat (by decide) (decide_eq_true hpath)).1 extremeCleartext rfl
    (by decide) (by decide) ?_ ⟨by decide, ?_⟩
  · simp [DeserializedCleartext.Sized, DeserializedCleartext.byteStrings, extremeCleartext,
      sizeModulus]
  · simp [DeserializedCleartext.byteStrings, extremeCleartext, referenceHost, referencePlatform,
      ptrdiffMax]

end Khefin
