import Khefin.DeviceSearch
import Khefin.Enumerate
import Mathlib.Data.List.Forall2

/-! # What an enumeration prints

A device that cannot be opened, or that gives no information, ends the whole run where it
stands. The information is asked for before it is known whether the device is FIDO2. -/

namespace Khefin
open CLibrary ExitingPrograms

/-! ## Records -/

/-- The device can be opened and gives its information. -/
structure Authenticator.GivesInfo (a : Authenticator) : Prop where
  fidoDevNew : a.fidoDevNew = true
  fidoDevOpen : a.fidoDevOpen = fidoOk
  fidoCborInfoNew : a.fidoCborInfoNew = true
  fidoDevGetCborInfo : a.fidoDevGetCborInfo = fidoOk

/-- FIDO2 and with the extension. -/
def Authenticator.CanEnrol (a : Authenticator) : Prop :=
  a.fidoDevIsFido2 = true ∧ literal "hmac-secret" ∈ a.cborInfo.extensions

instance (a : Authenticator) : Decidable a.CanEnrol := inferInstanceAs (Decidable (_ ∧ _))

/-- The four fields, the first blank exactly when the device can be enrolled. The last is the
AAGUID of the device where it gives one. -/
def Authenticator.IsRecord (a : Authenticator) (line : Bytes) : Prop :=
  ∃ marker aaguid : Bytes, (marker = (literal " ").bytes ↔ a.CanEnrol) ∧
    (marker = (literal "!").bytes ↔ ¬a.CanEnrol) ∧
    (a.fidoDevGetCborInfo = fidoOk → aaguid = a.cborInfo.aaguid) ∧
    line = marker ++ (literal "\t").bytes ++ a.path.bytes ++ (literal "\t").bytes ++
      a.manufacturerString.bytes ++ (literal " ").bytes ++ a.productString.bytes ++
      (literal "\t").bytes ++ deviceAaguidText aaguid ++ [newline]

/-- One record for each device, in the order of the list, and the status for an empty list
exactly for an empty list. -/
structure ListsEvery (devices : List Authenticator) (w : World)
    (run : EStateM.Result Halt World Unit) : Prop where
  records : ∃ lines, List.Forall₂ Authenticator.IsRecord devices lines ∧
    (finalState run).stdout = w.stdout ++ lines.flatten
  noDevices : (∃ message w', run = .error (.exit .noDevices message) w') ↔ devices = []

theorem deviceSupportsHmacSecret_iff {info : CborInfo} :
    deviceSupportsHmacSecret info = true ↔ literal "hmac-secret" ∈ info.extensions := by
  simp [deviceSupportsHmacSecret]

theorem isRecord_deviceLine (a : Authenticator) : a.IsRecord (deviceLine a a.cborInfo) := by
  have hsupported : (a.fidoDevIsFido2 && deviceSupportsHmacSecret a.cborInfo) = decide a.CanEnrol := by
    rw [Bool.eq_iff_iff, Bool.and_eq_true, deviceSupportsHmacSecret_iff, decide_eq_true_iff]
    exact Iff.rfl
  have hne : (literal " ").bytes ≠ (literal "!").bytes := by decide
  refine ⟨(literal (if a.CanEnrol then " " else "!")).bytes, a.cborInfo.aaguid, ?_, ?_,
    fun _ => rfl, ?_⟩
  · by_cases hcan : a.CanEnrol <;> simp [hcan, hne.symm]
  · by_cases hcan : a.CanEnrol <;> simp [hcan, hne]
  · simp only [deviceLine, hsupported, decide_eq_true_eq, List.append_assoc]

theorem Authenticator.IsRecord.ne_nil {a : Authenticator} {line : Bytes} (h : a.IsRecord line) :
    line ≠ [] := by
  obtain ⟨marker, aaguid, -, -, -, rfl⟩ := h
  simp

/-- A device that gives its information has one record only. -/
theorem Authenticator.IsRecord.eq_deviceLine {a : Authenticator} {line : Bytes} (h : a.IsRecord line)
    (hinfo : a.fidoDevGetCborInfo = fidoOk) : line = deviceLine a a.cborInfo := by
  obtain ⟨marker, aaguid, hblank, hmarked, haaguid, rfl⟩ := h
  obtain ⟨marker', aaguid', hblank', hmarked', haaguid', hline⟩ := isRecord_deviceLine a
  have hmarker : marker = marker' := by
    by_cases hcan : a.CanEnrol
    · rw [hblank.mpr hcan, hblank'.mpr hcan]
    · rw [hmarked.mpr hcan, hmarked'.mpr hcan]
  rw [hline, hmarker, haaguid hinfo, haaguid' hinfo]

/-! ## One turn -/

/-- The run has stopped, and not with the status for an empty list. -/
def StopsAt {α : Type} (w : World) (run : EStateM.Result Halt World α) : Prop :=
  ∃ status message, status ≠ .noDevices ∧ run = .error (.exit status message) w

section Turns

variable {device : FidoDev} {slot : ℕ} {a : Authenticator} {devices : List Authenticator} {w w' : World}

theorem stopsAt_bind {α β : Type} {x : Program α} {f : α → Program β} (h : StopsAt w' (x w)) :
    StopsAt w' ((x >>= f) w) := by
  obtain ⟨status, message, hne, hx⟩ := h
  exact ⟨status, message, hne, bind_of_error hx f⟩

theorem stopsAt_getDeviceEvenIfNotFido2
    (h : ¬(device.authenticator.fidoDevNew = true ∧ device.authenticator.fidoDevOpen = fidoOk))
    (w : World) : StopsAt w (getDeviceEvenIfNotFido2 device w) := by
  by_cases hnew : device.authenticator.fidoDevNew = true
  · have hopen : device.authenticator.fidoDevOpen ≠ fidoOk := fun hopen => h ⟨hnew, hopen⟩
    exact ⟨.authenticatorError, _, by decide,
      by simp [getDeviceEvenIfNotFido2, bind_apply, stopIf, hnew, hopen]; rfl⟩
  · exact ⟨.outOfMemory, _, by decide,
      by simp [getDeviceEvenIfNotFido2, bind_apply, stopIf, hnew]; rfl⟩

theorem stopsAt_getDeviceInfo
    (h : ¬(device.authenticator.fidoCborInfoNew = true ∧
      device.authenticator.fidoDevGetCborInfo = fidoOk)) (w : World) :
    StopsAt w (getDeviceInfo device w) := by
  by_cases hnew : device.authenticator.fidoCborInfoNew = true
  · have hget : device.authenticator.fidoDevGetCborInfo ≠ fidoOk := fun hget => h ⟨hnew, hget⟩
    exact ⟨.authenticatorError, _, by decide,
      by simp [getDeviceInfo, stopIf, hnew, hget]; rfl⟩
  · exact ⟨.outOfMemory, _, by decide, by simp [getDeviceInfo, bind_apply, stopIf, hnew]; rfl⟩

theorem getDeviceEvenIfNotFido2_of_givesInfo (h : device.authenticator.GivesInfo) (w : World) :
    getDeviceEvenIfNotFido2 device w = .ok () (w.record (.fidoDevOpen device.slot)) := by
  simp [getDeviceEvenIfNotFido2, stopIf, h.fidoDevNew, h.fidoDevOpen]

theorem printDevice_of_givesInfo (h : device.authenticator.GivesInfo) (w : World) :
    printDevice device w = .ok () (((w.record (.fidoDevOpen device.slot)).printf
      (deviceLine device.authenticator device.authenticator.cborInfo)).closed device) := by
  have hinfo : getDeviceInfo device (w.record (.fidoDevOpen device.slot)) =
      .ok device.authenticator.cborInfo (w.record (.fidoDevOpen device.slot)) := by
    simp [getDeviceInfo, stopIf, h.fidoCborInfoNew, h.fidoDevGetCborInfo]
  rw [printDevice, bind_of_ok (getDeviceEvenIfNotFido2_of_givesInfo h w), bind_of_ok hinfo,
    bind_of_ok (modify_apply _ _)]
  exact closeAndFreeDeviceIgnoringErrors_apply device _

/-- Nothing is printed for the device. -/
theorem printDevice_of_not_givesInfo (h : ¬device.authenticator.GivesInfo) (w : World) :
    ∃ w', StopsAt w' (printDevice device w) ∧ w'.stdout = w.stdout := by
  by_cases hopen : device.authenticator.fidoDevNew = true ∧ device.authenticator.fidoDevOpen = fidoOk
  · have hinfo : ¬(device.authenticator.fidoCborInfoNew = true ∧
        device.authenticator.fidoDevGetCborInfo = fidoOk) := fun hinfo =>
      h ⟨hopen.1, hopen.2, hinfo.1, hinfo.2⟩
    have hopened : getDeviceEvenIfNotFido2 device w =
        .ok () (w.record (.fidoDevOpen device.slot)) := by
      simp [getDeviceEvenIfNotFido2, stopIf, hopen.1, hopen.2]
    refine ⟨w.record (.fidoDevOpen device.slot), ?_, rfl⟩
    rw [printDevice, bind_of_ok hopened]
    exact stopsAt_bind (stopsAt_getDeviceInfo hinfo _)
  · exact ⟨w, stopsAt_bind (stopsAt_getDeviceEvenIfNotFido2 hopen w), rfl⟩

end Turns

/-! ## The whole list -/

section Listing

variable {devices : List Authenticator} {w : World}

theorem printDevices_of_givesInfo (h : ∀ a ∈ devices, a.GivesInfo) (slot : ℕ) (w : World) :
    ∃ w', printDevices slot devices w = .ok () w' ∧
      w'.stdout = w.stdout ++ (devices.map fun a => deviceLine a a.cborInfo).flatten := by
  induction devices generalizing slot w with
  | nil => exact ⟨w, rfl, by simp⟩
  | cons a devices ih =>
    obtain ⟨hgives, hothers⟩ := List.forall_mem_cons.mp h
    obtain ⟨w', hrun, hout⟩ := ih hothers (slot + 1)
      (((w.record (.fidoDevOpen slot)).printf (deviceLine a a.cborInfo)).closed ⟨slot, a⟩)
    refine ⟨w', ?_, ?_⟩
    · rw [printDevices, bind_of_ok (@printDevice_of_givesInfo ⟨slot, a⟩ hgives w)]
      exact hrun
    · simpa using hout

/-- The records of the devices in front of the first that gives no information. -/
theorem printDevices_of_not_givesInfo (h : ¬∀ a ∈ devices, a.GivesInfo) (slot : ℕ) (w : World) :
    ∃ w' before a after, StopsAt w' (printDevices slot devices w) ∧
      devices = before ++ a :: after ∧ (∀ b ∈ before, b.GivesInfo) ∧
      w'.stdout = w.stdout ++ (before.map fun b => deviceLine b b.cborInfo).flatten := by
  induction devices generalizing slot w with
  | nil => exact absurd (by simp) h
  | cons a devices ih =>
    by_cases hgives : a.GivesInfo
    · have hothers : ¬∀ b ∈ devices, b.GivesInfo := fun hothers =>
        h (List.forall_mem_cons.mpr ⟨hgives, hothers⟩)
      obtain ⟨w', before, b, after, hstops, rfl, hbefore, hout⟩ := ih hothers (slot + 1)
        (((w.record (.fidoDevOpen slot)).printf (deviceLine a a.cborInfo)).closed ⟨slot, a⟩)
      refine ⟨w', a :: before, b, after, ?_, rfl, List.forall_mem_cons.mpr ⟨hgives, hbefore⟩, ?_⟩
      · rw [printDevices, bind_of_ok (@printDevice_of_givesInfo ⟨slot, a⟩ hgives w)]
        exact hstops
      · simpa using hout
    · obtain ⟨w', hstops, hout⟩ := @printDevice_of_not_givesInfo ⟨slot, a⟩ hgives w
      exact ⟨w', [], a, devices, stopsAt_bind hstops, rfl, by simp, by simpa using hout⟩

/-- Records of the devices in front are no records of more devices. -/
theorem not_forall₂_records {before after : List Authenticator} {a : Authenticator}
    (hbefore : ∀ b ∈ before, b.GivesInfo) {lines : List Bytes}
    (hlines : List.Forall₂ Authenticator.IsRecord (before ++ a :: after) lines) :
    lines.flatten ≠ (before.map fun b => deviceLine b b.cborInfo).flatten := by
  induction before generalizing lines with
  | nil =>
    cases hlines with
    | cons hline _ => simp [hline.ne_nil]
  | cons b before ih =>
    obtain ⟨hgives, hbefore⟩ := List.forall_mem_cons.mp hbefore
    cases hlines with
    | cons hline hlines =>
      rw [hline.eq_deviceLine hgives.fidoDevGetCborInfo, List.flatten_cons, List.map_cons,
        List.flatten_cons]
      exact fun heq => ih hbefore hlines (List.append_cancel_left heq)

theorem noDevices_iff (devices : List Authenticator) (w : World) :
    (∃ message w', printDevicesList devices w = .error (.exit .noDevices message) w') ↔
      devices = [] := by
  by_cases hall : ∀ a ∈ devices, a.GivesInfo
  · obtain ⟨w', hrun, -⟩ := printDevices_of_givesInfo hall 0 w
    rw [printDevicesList, bind_of_ok hrun]
    by_cases hempty : devices = [] <;> simp [stopIf, hempty]
  · obtain ⟨w', before, a, after, ⟨status, message, hne, hrun⟩, rfl, -⟩ :=
      printDevices_of_not_givesInfo hall 0 w
    rw [printDevicesList, bind_of_error hrun]
    simp [hne]

/-- An enumeration lists every device exactly when each of them can be opened and gives its
information, also those that are not FIDO2. -/
theorem listsEvery_iff (devices : List Authenticator) (w : World) :
    ListsEvery devices w (printDevicesList devices w) ↔ ∀ a ∈ devices, a.GivesInfo := by
  constructor
  · intro hlists
    by_contra hsome
    obtain ⟨w', before, a, after, ⟨status, message, -, hrun⟩, rfl, hbefore, hout⟩ :=
      printDevices_of_not_givesInfo hsome 0 w
    obtain ⟨lines, hlines, hprinted⟩ := hlists.records
    rw [printDevicesList, bind_of_error hrun, finalState_error, hout,
      List.append_cancel_left_eq] at hprinted
    exact not_forall₂_records hbefore hlines hprinted.symm
  · intro hall
    obtain ⟨w', hrun, hout⟩ := printDevices_of_givesInfo hall 0 w
    have hlines : List.Forall₂ Authenticator.IsRecord devices
        (devices.map fun a => deviceLine a a.cborInfo) :=
      List.forall₂_map_right_iff.mpr (List.forall₂_same.mpr fun a _ => isRecord_deviceLine a)
    have hend : finalState (printDevicesList devices w) = w' := by
      rw [printDevicesList, bind_of_ok hrun]
      by_cases hempty : devices = [] <;> simp [stopIf, hempty]
    exact ⟨⟨_, hlines, by rw [hend, hout]⟩, noDevices_iff devices w⟩

end Listing

/-- A first-generation key in front of a good one: neither is listed. -/
theorem u2f_hides_reference : u2fDevice.fidoDevOpen = fidoOk ∧ u2fDevice.fidoDevIsFido2 = false ∧
    referenceDevice.GivesInfo ∧ referenceDevice.CanEnrol ∧
    ¬ListsEvery [u2fDevice, referenceDevice] emptyWorld
      (printDevicesList [u2fDevice, referenceDevice] emptyWorld) := by
  refine ⟨rfl, rfl, ⟨rfl, rfl, rfl, rfl⟩, by decide, fun hlists => ?_⟩
  obtain ⟨lines, hlines, hprinted⟩ := hlists.records
  have hnothing : (finalState (printDevicesList [u2fDevice, referenceDevice] emptyWorld)).stdout =
      emptyWorld.stdout ++ [] := rfl
  rw [hnothing, List.append_cancel_left_eq] at hprinted
  cases hlines with
  | cons hline _ => simp [hline.ne_nil] at hprinted

end Khefin
