import Khefin.OpeningRuns
import Khefin.ProperStops

/-! # The grammar of a keyfile

A keyfile starts with an array of eight elements. The loader looks at the first
element before it has seen how many there are, so what it does on every other
input depends on whether there is a first element at all. -/

namespace Khefin
open CLibrary ExitingPrograms

/-- The elements of a keyfile; the types of the fields are their widths. -/
def keyfileElements (deviceAaguid kdfSalt : Bytes) (opslimit memlimit : UInt64)
    (algorithm : UInt16) (nonce encryptedData : Bytes) : List Cbor.Item :=
  [.uint .w8 1, .bytes deviceAaguid, .bytes kdfSalt, .uint .w64 opslimit.toNat,
    .uint .w64 memlimit.toNat, .uint .w16 algorithm.toNat, .bytes nonce, .bytes encryptedData]

/-- The first item of the input is an array of these elements, and these are the fields. -/
def HasGrammar (P : Platform) (data : Bytes) (c : DeserializedCleartext) : Prop :=
  ∃ definite deviceAaguid kdfSalt opslimit memlimit algorithm nonce encryptedData,
    P.cbor.cborLoad data = .ok (.array definite (keyfileElements deviceAaguid kdfSalt opslimit
      memlimit algorithm nonce encryptedData)) ∧
    c = { version := 1, deviceAaguid, kdfSalt, opslimit, memlimit,
          algorithm := algorithm.toNat, nonce, encryptedData }

def Halt.IsDeserializationError : Halt → Prop
  | .exit status _ => status = .deserializationError
  | .fault _ => False

/-- What is required of the loader on one input. -/
structure LoadsExactly (P : Platform) (file : EncodedFile) : Prop where
  in_bounds : loadCleartext P file ≠ .error (.fault "cbor_array_get")
  accepts_iff : ∀ c, loadCleartext P file = .ok c ↔ HasGrammar P file.data c
  refuses : (¬∃ c, HasGrammar P file.data c) →
    ∃ h, loadCleartext P file = .error h ∧ h.IsDeserializationError

/-! ## What is accepted -/

theorem algorithm_of_isV1 {c : DeserializedCleartext} (h : c.IsV1) :
    ((UInt16.ofNat c.algorithm.toNat).toNat : ℤ) = c.algorithm := by
  have hn := h.nonneg
  have hl := h.lt
  simp only [UInt16.toNat_ofNat']
  omega

theorem cleartextItems_of_isV1 {c : DeserializedCleartext} (h : c.IsV1) :
    cleartextItems c = keyfileElements c.deviceAaguid c.kdfSalt c.opslimit c.memlimit
      (UInt16.ofNat c.algorithm.toNat) c.nonce c.encryptedData := by
  have hcast := uint16OfInt_cast h.nonneg h.lt
  have halgorithm : uint16OfInt c.algorithm = (UInt16.ofNat c.algorithm.toNat).toNat := by
    have hboth := hcast.trans (algorithm_of_isV1 h).symm
    omega
  rw [cleartextItems, keyfileElements, h.version, halgorithm]
  rfl

theorem hasGrammar_iff {P : Platform} (hf : P.cbor.FollowsFormat) {data : Bytes}
    {c : DeserializedCleartext} : HasGrammar P data c ↔
      (∃ definite r, Cbor.decode data = some (.array definite (cleartextItems c), r)) ∧ c.IsV1 := by
  constructor
  · rintro ⟨definite, a, k, o, m, g, n, e, hload, rfl⟩
    have hg := g.toNat_lt
    have hv : DeserializedCleartext.IsV1 ⟨1, a, k, o, m, g.toNat, n, e⟩ :=
      ⟨rfl, by simp, by simpa using hg⟩
    obtain ⟨r, hr⟩ := hf.load_sound hload
    refine ⟨⟨definite, r, ?_⟩, hv⟩
    rw [cleartextItems_of_isV1 hv]
    simpa using hr
  · rintro ⟨⟨definite, r, hr⟩, hv⟩
    have hload := hf.load_complete hr (isFlat_serializeCleartextToCborV1 c definite)
    rw [cleartextItems_of_isV1 hv] at hload
    have hversion : c.version = 1 := hv.version
    refine ⟨definite, _, _, _, _, _, _, _, hload, ?_⟩
    rw [algorithm_of_isV1 hv, ← hversion]

/-! ## What is refused -/

theorem fits_of_decode {P : Platform} {data r : Bytes} {definite : Bool}
    {c : DeserializedCleartext}
    (hm : P.Allocates (max sizeofDeserializedCleartext data.length))
    (h : Cbor.decode data = some (.array definite (cleartextItems c), r)) : c.Fits P :=
  ⟨hm _ (Nat.le_max_left _ _), fun _ hb =>
    Or.inr (hm _ ((length_le_of_decode h hb).trans (Nat.le_max_right _ _)))⟩

/-- Behind the two checks of the dispatcher, only the format is left to complain about. -/
theorem refuses_deserializeCleartext {P : Platform} {items : List Cbor.Item} {v : ℕ}
    (hv : items[0]? = some (.uint .w8 v)) (h1 : UInt8.ofNat v = 1)
    (hs : P.malloc sizeofDeserializedCleartext = true)
    (hm : ∀ data, .bytes data ∈ items → P.malloc data.length = true) :
    FailsIn Halt.IsDeserializationError (deserializeCleartextFromCborV1 P items) := by
  have hbytes : ∀ what data, .bytes data ∈ items →
      FailsIn Halt.IsDeserializationError (mallocUnlessEmpty P data.length what) := by
    intro what data hdata
    rw [mallocUnlessEmpty_of (hm data hdata)]
    exact failsIn_ok _
  refine failsIn_bind ?_ fun _ _ => ?_
  · rw [mallocOrExit_of hs]
    exact failsIn_ok _
  refine failsIn_bind (failsIn_stopIf fun _ => rfl) fun _ hl => ?_
  rw [stopIf_eq_ok, not_not] at hl
  have hget : ∀ field < clearCountOfFields,
      FailsIn Halt.IsDeserializationError (cborArrayGet items field) :=
    fun field hfield => failsIn_cborArrayGet (hl ▸ hfield)
  refine failsIn_bind (failsIn_uintField (hget _ (by decide)) rfl) fun version hversion => ?_
  refine failsIn_bind (failsIn_stopIf fun hne => ?_) fun _ _ => ?_
  · rw [uintField_eq_ok] at hversion
    obtain rfl : v = version := by simpa [clearFieldVersion, hv] using hversion
    exact absurd h1 hne
  refine failsIn_bind (failsIn_bytestringField (hget _ (by decide)) (hbytes _) rfl) fun _ _ => ?_
  refine failsIn_bind (failsIn_bytestringField (hget _ (by decide)) (hbytes _) rfl) fun _ _ => ?_
  refine failsIn_bind (failsIn_uintField (hget _ (by decide)) rfl) fun _ _ => ?_
  refine failsIn_bind (failsIn_uintField (hget _ (by decide)) rfl) fun _ _ => ?_
  refine failsIn_bind (failsIn_uintField (hget _ (by decide)) rfl) fun _ _ => ?_
  refine failsIn_bind (failsIn_bytestringField (hget _ (by decide)) (hbytes _) rfl) fun _ _ => ?_
  refine failsIn_bind (failsIn_bytestringField (hget _ (by decide)) (hbytes _) rfl) fun _ _ => ?_
  exact failsIn_ok _

theorem refuses_loadArray {P : Platform} {data : Bytes} {source : List Argument}
    {undecodable notArray : String} :
    FailsIn Halt.IsDeserializationError (loadArray P data source undecodable notArray) := by
  unfold loadArray
  split
  · exact failsIn_error rfl
  · exact failsIn_ok _
  · exact failsIn_error rfl

/-- The first item of the input is an array without elements. -/
def StartsWithEmptyArray (data : Bytes) : Prop :=
  ∃ definite r, Cbor.decode data = some (.array definite [], r)

theorem refuses_loadCleartext {P : Platform} (hf : P.cbor.FollowsFormat) {file : EncodedFile}
    (hm : P.Allocates (max sizeofDeserializedCleartext file.data.length))
    (hne : ¬StartsWithEmptyArray file.data) :
    FailsIn Halt.IsDeserializationError (loadCleartext P file) := by
  refine failsIn_bind refuses_loadArray fun items hitems => ?_
  obtain ⟨definite, hload⟩ := loadArray_eq_ok.mp hitems
  obtain ⟨r, hr⟩ := hf.load_sound hload
  have hpayload := (Cbor.decode_spec hr).2
  rw [Cbor.Item.payload] at hpayload
  have hlength : 0 < items.length := by
    refine List.length_pos_of_ne_nil fun hempty => hne ⟨definite, r, ?_⟩
    rw [hr, hempty]
  have hbytes : ∀ data, .bytes data ∈ items → P.malloc data.length = true := by
    intro data hdata
    have hle : data.length ≤ Cbor.payloadAll items := Cbor.payload_le_payloadAll hdata
    exact hm _ (le_max_of_le_right (by omega))
  refine failsIn_bind (failsIn_uintField (failsIn_cborArrayGet hlength) rfl) fun v hv => ?_
  rw [uintField_eq_ok] at hv
  refine failsIn_bind (failsIn_stopIf fun _ => rfl) fun _ h1 => ?_
  rw [stopIf_eq_ok, not_not] at h1
  exact refuses_deserializeCleartext hv h1 (hm _ (Nat.le_max_left _ _)) hbytes

/-- The version is looked for in an array that has no elements. -/
theorem loadCleartext_of_empty {P : Platform} (hf : P.cbor.FollowsFormat) {file : EncodedFile}
    (h : StartsWithEmptyArray file.data) :
    loadCleartext P file = .error (.fault "cbor_array_get") := by
  obtain ⟨definite, r, hr⟩ := h
  have hload := hf.load_complete hr (by simp [IsFlat])
  have hitems : loadArray P file.data [.string file.path]
      "Unable to deserialize %s; is it not CBOR-encoded? CBOR error code %d: %s"
      "%s has the wrong format (should be a CBOR array at root)" = .ok [] :=
    loadArray_eq_ok.mpr ⟨definite, hload⟩
  rw [loadCleartext, hitems]
  rfl

/-- The loader accepts the grammar and refuses everything else cleanly, except on an input that
starts with an empty array. -/
theorem loadsExactly_iff {P : Platform} (hf : P.cbor.FollowsFormat) {file : EncodedFile}
    (hm : P.Allocates (max sizeofDeserializedCleartext file.data.length)) :
    LoadsExactly P file ↔ ¬StartsWithEmptyArray file.data := by
  constructor
  · exact fun h hempty => h.in_bounds (loadCleartext_of_empty hf hempty)
  · intro hne
    have hrefuses := refuses_loadCleartext hf hm hne
    have haccepts : ∀ c, loadCleartext P file = .ok c ↔ HasGrammar P file.data c := by
      intro c
      rw [loadCleartext_eq_ok hf, hasGrammar_iff hf]
      constructor
      · exact fun h => ⟨h.1, h.2.1⟩
      · rintro ⟨⟨definite, r, hr⟩, hv⟩
        exact ⟨⟨definite, r, hr⟩, hv, fits_of_decode hm hr⟩
    refine ⟨fun h => hrefuses _ h, haccepts, fun hnone => ?_⟩
    cases hload : loadCleartext P file with
    | ok c => exact absurd ⟨c, (haccepts c).mp hload⟩ hnone
    | error h => exact ⟨h, rfl, hrefuses h hload⟩

/-- An array of one element. -/
def oneElementFile : EncodedFile := { path := literal "keyfile", data := [0x81, 0x01] }

theorem loadsExactly_oneElement : LoadsExactly (referenceHost referenceDevice) oneElementFile := by
  refine (loadsExactly_iff referenceCbor_followsFormat ?_).mpr ?_
  · exact (referencePlatform_allocates _ _).mono (by decide)
  · rintro ⟨definite, r, h⟩
    have hdecode : Cbor.decode oneElementFile.data = some (.array true [.uint .w8 1], []) := rfl
    simp [hdecode] at h

/-- One byte that announces an array of no elements. -/
def emptyArrayFile : EncodedFile := { path := literal "keyfile", data := [0x80] }

/-- The loader reads behind the end of the array. -/
theorem not_loadsExactly_emptyArray :
    loadCleartext (referenceHost referenceDevice) emptyArrayFile =
      .error (.fault "cbor_array_get") ∧
    ¬LoadsExactly (referenceHost referenceDevice) emptyArrayFile := by
  have hempty : StartsWithEmptyArray emptyArrayFile.data := ⟨true, [], rfl⟩
  have hload : loadCleartext (referenceHost referenceDevice) emptyArrayFile = _ :=
    loadCleartext_of_empty referenceCbor_followsFormat hempty
  exact ⟨hload, fun h => h.in_bounds hload⟩

end Khefin
