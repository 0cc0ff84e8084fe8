import Khefin.KeyfileStorage
import Khefin.ShellPipelines
import Khefin.StartReports

/-! # Completing the path of a device

What `enumerate` prints is read back by the completion of `--device`, which offers the devices that
an enrolment would accept. -/

namespace Khefin.BashCompletion
open CLibrary ExitingPrograms Shell

def tab : UInt8 := 0x09

/-- `grep -v '^!'` -/
def unmarked (line : Bytes) : Option Bytes :=
  if (text "!").isPrefixOf line then none else some line

/-- `mapfile -t COMPREPLY < <(khefin enumerate | grep -v '^!' | cut -f 2)` -/
def completeDevices (enumerated : Bytes) : List Bytes :=
  inputLines (filtered (some ∘ cutField tab 1) (filtered unmarked enumerated))

/-! ## Records -/

/-- The texts of a device stay within its fields. -/
structure IsPlain (a : Authenticator) : Prop where
  path : tab ∉ a.path.bytes ∧ newline ∉ a.path.bytes
  manufacturer : newline ∉ a.manufacturerString.bytes
  product : newline ∉ a.productString.bytes

/-- What follows the path. -/
def rest (a : Authenticator) : Bytes :=
  a.manufacturerString.bytes ++ (literal " ").bytes ++ a.productString.bytes ++ [tab] ++
    deviceAaguidText a.cborInfo.aaguid

/-- A line without its newline. -/
def record (a : Authenticator) : Bytes :=
  text (if a.CanEnrol then " " else "!") ++ tab :: (a.path.bytes ++ tab :: rest a)

section Records

variable {a : Authenticator}

theorem deviceLine_eq (a : Authenticator) : deviceLine a a.cborInfo = record a ++ [newline] := by
  have hsupported : (a.fidoDevIsFido2 && deviceSupportsHmacSecret a.cborInfo) = decide a.CanEnrol := by
    rw [Bool.eq_iff_iff, Bool.and_eq_true, deviceSupportsHmacSecret_iff, decide_eq_true_iff]
    exact Iff.rfl
  have htab : (literal "\t").bytes = [tab] := by decide
  simp only [deviceLine, record, rest, hsupported, htab, text, decide_eq_true_eq, List.append_assoc,
    List.cons_append, List.nil_append]

theorem listing_eq (devices : List Authenticator) : listing devices =
    joinLines ((devices.takeWhile fun a => decide a.GivesInfo).map record) := by
  rw [listing, joinLines, List.flatMap_map]
  exact List.flatMap_congr fun a _ => deviceLine_eq a

theorem hexDigit_ne_newline {n : UInt8} (h : n < 16) : hexDigit n ≠ newline := by
  have hall : ∀ n : Fin 16, hexDigit (UInt8.ofNat n) ≠ newline := by decide
  have hdigit := hall ⟨n.toNat, UInt8.lt_iff_toNat_lt.mp h⟩
  rwa [UInt8.ofNat_toNat] at hdigit

theorem nibbles_lt (b : UInt8) : b / 16 < 16 ∧ b % 16 < 16 := by
  rw [UInt8.lt_iff_toNat_lt, UInt8.lt_iff_toNat_lt, UInt8.toNat_div, UInt8.toNat_mod]
  have hbyte := b.toNat_lt
  change b.toNat / 16 < 16 ∧ b.toNat % 16 < 16
  omega

theorem newline_notMem_deviceAaguidText (aaguid : Bytes) : newline ∉ deviceAaguidText aaguid := by
  have hdash : newline ∉ (literal "-").bytes := by decide
  rw [deviceAaguidText, List.mem_flatMap]
  rintro ⟨⟨b, i⟩, -, hmem⟩
  rcases List.mem_append.mp hmem with hpair | hseparator
  · rcases List.mem_pair.mp hpair with h | h
    · exact hexDigit_ne_newline (nibbles_lt b).1 h.symm
    · exact hexDigit_ne_newline (nibbles_lt b).2 h.symm
  · split_ifs at hseparator
    · exact hdash hseparator
    · exact List.not_mem_nil hseparator

theorem newline_notMem_record (h : IsPlain a) : newline ∉ record a := by
  have hmarker : newline ∉ text (if a.CanEnrol then " " else "!") := by split <;> decide
  have htab : newline ≠ tab := by decide
  have hspace : newline ∉ (literal " ").bytes := by decide
  simp only [record, rest, List.mem_append, List.mem_cons, not_or, List.not_mem_nil]
  exact ⟨hmarker, htab, h.path.2, htab, ⟨⟨⟨h.manufacturer, hspace⟩, h.product⟩, htab, not_false⟩,
    newline_notMem_deviceAaguidText _⟩

theorem unmarked_record (a : Authenticator) :
    unmarked (record a) = if a.CanEnrol then some (record a) else none := by
  have hblank : text " " = [0x20] := by decide
  have hmark : text "!" = [0x21] := by decide
  have hne : ((0x21 : UInt8) == 0x20) = false := by decide
  unfold unmarked record
  split_ifs with hcan <;> simp_all [List.isPrefixOf]

theorem cutField_record (h : IsPlain a) : cutField tab 1 (record a) = a.path.bytes := by
  have hmarker : tab ∉ text (if a.CanEnrol then " " else "!") := by split <;> decide
  exact cutField_one _ hmarker h.path.1

end Records

/-! ## What is offered -/

/-- The devices that are listed and can be enrolled. -/
def enrolable (devices : List Authenticator) : List Authenticator :=
  (devices.takeWhile fun a => decide a.GivesInfo).filter fun a => decide a.CanEnrol

section Completions

variable {devices : List Authenticator} (hplain : ∀ a ∈ devices, IsPlain a)
include hplain

theorem filtered_unmarked_listing :
    filtered unmarked (listing devices) = joinLines ((enrolable devices).map record) := by
  have hlisted : ∀ line ∈ (devices.takeWhile fun a => decide a.GivesInfo).map record,
      newline ∉ line := by
    intro line hline
    obtain ⟨a, ha, rfl⟩ := List.mem_map.mp hline
    exact newline_notMem_record (hplain a ((List.takeWhile_prefix _).subset ha))
  rw [listing_eq, filtered_joinLines hlisted, enrolable]
  congr 1
  induction devices.takeWhile fun a => decide a.GivesInfo with
  | nil => rfl
  | cons a devices ih =>
    rw [List.map_cons, List.filterMap_cons, unmarked_record, List.filter_cons]
    by_cases hcan : a.CanEnrol
    · rw [if_pos hcan, if_pos (decide_eq_true hcan), List.map_cons, ih]
    · rw [if_neg hcan, if_neg (by simp [hcan]), ih]

/-- The listing is read back. -/
theorem completeDevices_listing :
    completeDevices (listing devices) = (enrolable devices).map (·.path.bytes) := by
  have hmem : ∀ a ∈ enrolable devices, IsPlain a := fun a ha =>
    hplain a ((List.takeWhile_prefix _).subset (List.mem_of_mem_filter ha))
  have hrecords : ∀ line ∈ (enrolable devices).map record, newline ∉ line := by
    intro line hline
    obtain ⟨a, ha, rfl⟩ := List.mem_map.mp hline
    exact newline_notMem_record (hmem a ha)
  have hpaths : ((enrolable devices).map record).filterMap (some ∘ cutField tab 1) =
      (enrolable devices).map (·.path.bytes) := by
    rw [List.filterMap_eq_map, List.map_map]
    exact List.map_congr_left fun a ha => cutField_record (hmem a ha)
  rw [completeDevices, filtered_unmarked_listing hplain, filtered_joinLines hrecords, hpaths]
  apply inputLines_joinLines
  intro path hpath
  obtain ⟨a, ha, rfl⟩ := List.mem_map.mp hpath
  exact (hmem a ha).path.2

end Completions

/-! ## What an enrolment makes of the others -/

section Enrolments

variable {P : Platform} {invocation : InvocationState} {path : CString}

/-- The device is refused before anything is asked of it. -/
theorem enrolCredential_refuses (hpath : invocation.device = some path)
    (hgives : (P.authenticatorAt path).GivesInfo) (hcannot : ¬(P.authenticatorAt path).CanEnrol)
    (w : World) : ∃ m, enrolCredential P invocation w =
      .error (.exit .authenticatorError m) (w.record (.fidoDevOpen 0)) := by
  have hderef : (lift (dereference "fido_dev_open" invocation.device) : Program CString) w =
      .ok path w := lift_eq_ok.mpr ⟨dereference_eq_ok.mpr hpath, rfl⟩
  have hopened : getDeviceEvenIfNotFido2 ⟨0, P.authenticatorAt path⟩ w =
      .ok () (w.record (.fidoDevOpen 0)) := @getDeviceEvenIfNotFido2_of_givesInfo ⟨0, _⟩ hgives w
  rw [enrolCredential, bind_of_ok hderef]
  cases hfido2 : (P.authenticatorAt path).fidoDevIsFido2 with
  | false =>
    have hrefused : ∃ m, getDevice ⟨0, P.authenticatorAt path⟩ w =
        .error (.exit .authenticatorError m) (w.record (.fidoDevOpen 0)) := by
      rw [getDevice, bind_of_ok hopened]
      exact ⟨_, lift_eq_error.mpr ⟨stopIf_pos hfido2 _, rfl⟩⟩
    obtain ⟨m, hrefused⟩ := hrefused
    exact ⟨m, bind_of_error hrefused _⟩
  | true =>
    have hdevice : getDevice ⟨0, P.authenticatorAt path⟩ w = .ok () (w.record (.fidoDevOpen 0)) := by
      rw [getDevice, bind_of_ok hopened]
      exact lift_eq_ok.mpr ⟨stopIf_neg (by simp [hfido2]) _, rfl⟩
    have hinfo : getDeviceInfo ⟨0, P.authenticatorAt path⟩ (w.record (.fidoDevOpen 0)) =
        .ok (P.authenticatorAt path).cborInfo (w.record (.fidoDevOpen 0)) := by
      simp [getDeviceInfo, stopIf, hgives.fidoCborInfoNew, hgives.fidoDevGetCborInfo]
    have hextension : deviceSupportsHmacSecret (P.authenticatorAt path).cborInfo = false := by
      rw [Bool.eq_false_iff]
      exact fun hsupported => hcannot ⟨hfido2, deviceSupportsHmacSecret_iff.mp hsupported⟩
    rw [bind_of_ok hdevice, bind_of_ok hinfo]
    exact ⟨_, bind_of_error (lift_eq_error.mpr ⟨stopIf_pos hextension _, rfl⟩) _⟩

end Enrolments

section Starts

variable {l : Launch} {invocation : InvocationState} {w : World} {devices : List Authenticator}

theorem refused (hl : l.Runs .enrol invocation w) {path : CString}
    (hpath : invocation.device = some path) (hgives : (l.platform.authenticatorAt path).GivesInfo)
    (hcannot : ¬(l.platform.authenticatorAt path).CanEnrol) :
    l.status = some .authenticatorError ∧ l.filesAfter = l.files := by
  obtain ⟨hresult, hunseen⟩ := Launch.result_of_parsed hl.1
  obtain ⟨m, hstop⟩ := enrolCredential_refuses hpath hgives hcannot w
  have hstopped : enrolDevice l.platform invocation w =
      .error (.exit .authenticatorError m) (w.record (.fidoDevOpen 0)) := bind_of_error hstop _
  rw [runSubcommand_enrol hl.2, bind_of_error hstopped] at hresult
  refine ⟨by rw [Launch.status, hresult], ?_⟩
  rw [Launch.filesAfter, hresult]
  exact hunseen.1

/-- A device without the extension. -/
def plainDevice : Authenticator :=
  { referenceDevice with path := literal "/dev/hidraw1", cborInfo := ⟨[], List.replicate 16 0x2f⟩ }

def enumerateStart : Launch where
  platform := { referenceHost referenceDevice with
    connected := [plainDevice, referenceDevice]
    getoptLong := fun _ => ⟨[], [literal "enumerate"]⟩ }
  argv := [literal "khefin", literal "enumerate"]
  files _ := none

def plainEnrolment : Launch where
  platform := { enrolHost ⟨true, true, 4096, 0, 4096⟩ with
    authenticatorAt := fun _ => plainDevice
    getoptLong := fun _ => ⟨[⟨'d', literal "/dev/hidraw1"⟩, ⟨'f', literal "keyfile"⟩,
      ⟨'p', literal "correct horse"⟩, ⟨'k', literal "low"⟩], [literal "enrol"]⟩ }
  argv := enrolArguments
  files _ := none

/-- The completion offers the devices that are listed and can be enrolled, in their order. An
enrolment with another device of the list is refused. -/
theorem completions_are_enrolable (hl : l.Runs .enumerate invocation w)
    (hlisted : listDevices l.platform = .ok devices) (hplain : ∀ a ∈ devices, IsPlain a) :
    completeDevices l.output = (enrolable devices).map (·.path.bytes) ∧
    ∀ (l' : Launch) (invocation' : InvocationState) (w' : World), l'.Runs .enrol invocation' w' →
      ∀ a ∈ devices.takeWhile fun a => decide a.GivesInfo, invocation'.device = some a.path →
        l'.platform.authenticatorAt a.path = a → a.path.bytes ∉ completeDevices l.output →
          l'.status = some .authenticatorError ∧ l'.filesAfter = l'.files := by
  have hoffered : completeDevices l.output = (enrolable devices).map (·.path.bytes) := by
    rw [(Launch.listed_output hl hlisted).1, completeDevices_listing hplain]
  refine ⟨hoffered, fun l' invocation' w' hl' a ha hpath hdevice hother => ?_⟩
  have hgives : a.GivesInfo := by simpa using List.mem_takeWhile_imp ha
  have hcannot : ¬a.CanEnrol := by
    intro hcan
    rw [hoffered] at hother
    exact hother (List.mem_map_of_mem (List.mem_filter.mpr ⟨ha, decide_eq_true hcan⟩))
  exact refused hl' hpath (by rw [hdevice]; exact hgives) (by rw [hdevice]; exact hcannot)

theorem completions_are_enrolable_reference :
    completeDevices enumerateStart.output = [(literal "/dev/hidraw0").bytes] ∧
      plainEnrolment.status = some .authenticatorError := by
  have hplain : ∀ a ∈ [plainDevice, referenceDevice], IsPlain a := by
    intro a ha
    rcases List.mem_pair.mp ha with rfl | rfl <;> exact ⟨by decide, by decide, by decide⟩
  have hlisted : listDevices enumerateStart.platform = .ok [plainDevice, referenceDevice] := rfl
  obtain ⟨hoffered, hrefused⟩ := completions_are_enrolable ⟨rfl, rfl⟩ hlisted hplain
  have hgives : plainDevice.GivesInfo := ⟨rfl, rfl, rfl, rfl⟩
  have honly : completeDevices enumerateStart.output = [(literal "/dev/hidraw0").bytes] := by
    rw [hoffered]
    decide
  refine ⟨honly, (hrefused plainEnrolment _ _ ⟨rfl, rfl⟩ plainDevice ?_ rfl rfl ?_).1⟩
  · simp [hgives]
  · rw [honly]
    decide

end Starts

end Khefin.BashCompletion
