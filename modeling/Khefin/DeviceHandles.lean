import Khefin.GenerationSoundness
import Khefin.HandleTraces

/-! # Devices that a generation opens and closes

Each turn of the search opens its device. Every way through the turn that returns closes it
once, save the one for a device of another kind than the keyfile names. -/

namespace Khefin
open CLibrary ExitingPrograms HandleTraces

/-! ## Handles in a trace -/

/-- A device is known by its position in the list. -/
def Event.handleUse : Event → Option (HandleUse ℕ)
  | .fidoDevOpen slot => some (.opening slot)
  | .fidoDevClose slot => some (.closing slot)
  | _ => none

def handleUses (events : List Event) : List (HandleUse ℕ) := events.filterMap Event.handleUse

@[simp] theorem handleUses_append (events events' : List Event) :
    handleUses (events ++ events') = handleUses events ++ handleUses events' :=
  List.filterMap_append

theorem handleUses_of_forall {events : List Event} (h : ∀ e ∈ events, e.handleUse = none) :
    handleUses events = [] := List.filterMap_eq_nil_iff.mpr h

theorem Event.IsPrompt.handleUse_eq {e : Event} (h : e.IsPrompt) : e.handleUse = none := by
  cases e <;> first | rfl | exact h.elim

theorem Event.IsKeyWork.handleUse_eq {e : Event} (h : e.IsKeyWork) : e.handleUse = none := by
  cases e <;> first | rfl | exact h.elim

/-- What a run of the program adds to the uses of the handles. -/
def Uses (uses : List (HandleUse ℕ)) (w w' : World) : Prop :=
  handleUses w'.trace = handleUses w.trace ++ uses

variable {w w₁ w' : World} {uses uses' : List (HandleUse ℕ)}

theorem Uses.trans (h : Uses uses w w₁) (h' : Uses uses' w₁ w') : Uses (uses ++ uses') w w' := by
  rw [Uses, h', h, List.append_assoc]

theorem Uses.trans_nil (h : Uses uses w w₁) (h' : Uses [] w₁ w') : Uses uses w w' := by
  simpa using h.trans h'

theorem uses_record (e : Event) (w : World) : Uses e.handleUse.toList w (w.record e) := by
  cases h : e.handleUse <;> simp [Uses, handleUses, h]

theorem uses_nil_of_traces {S : Event → Prop} (hS : ∀ e, S e → e.handleUse = none)
    (h : Traces S w w') : Uses [] w w' := by
  obtain ⟨events, htrace, hevents⟩ := h
  rw [Uses, htrace, handleUses_append, handleUses_of_forall fun e he => hS e (hevents e he)]

theorem uses_closed (device : FidoDev) (w : World) :
    Uses [.closing device.slot] w (w.closed device) := by
  unfold World.closed closeAndFreeDeviceIgnoringErrors
  by_cases hclose : device.authenticator.fidoDevClose = fidoOk
  · simp [bind_apply, hclose, Uses, handleUses, Event.handleUse]
  · simp [bind_apply, hclose, Uses, handleUses, Event.handleUse]

theorem uses_warnAboutResult (device : FidoDev) (result : ℤ) (w : World) :
    Uses [] w (finalState (warnAboutResult device result w)) := by
  unfold warnAboutResult
  split
  · simp [Uses]
  · split <;> exact uses_record _ w

/-! ## One turn -/

section Turns

variable {P : Platform} {invocation : InvocationState} {c : DeserializedCleartext}
  {device : FidoDev} {params : AuthenticatorParameters} {r : Option AuthenticatorParameters}

theorem uses_askDevice (h : askDevice P device params w = .ok r w') :
    Uses [.closing device.slot] w w' := by
  simp only [askDevice, bind_eq_ok, lift_eq_ok, closeAndFreeDeviceIgnoringErrors_apply] at h
  obtain ⟨_, w, ⟨-, rfl⟩, ⟨result, secret⟩, w₁, hsecret, _, w₂, hclosed, h⟩ := h
  obtain ⟨-, rfl, -⟩ := getSecret_spec hsecret
  obtain rfl := (EStateM.Result.ok.inj hclosed).2
  have hasked : Uses [.closing device.slot] w
      ((w.record (.fidoDevGetAssert device.slot params.assertionRequest)).closed device) :=
    (uses_record _ w).trans (uses_closed device _)
  dsimp only at h
  split at h
  · simp only [bind_eq_ok, modify_apply] at h
    obtain ⟨_, _, hprinted, h⟩ := h
    obtain rfl := (EStateM.Result.ok.inj hprinted).2
    obtain rfl := (EStateM.Result.ok.inj h).2
    exact hasked
  · simp only [bind_eq_ok] at h
    obtain ⟨_, _, hwarned, h⟩ := h
    obtain rfl := (EStateM.Result.ok.inj h).2
    have hreport := uses_warnAboutResult device result
      ((w.record (.fidoDevGetAssert device.slot params.assertionRequest)).closed device)
    rw [hwarned] at hreport
    exact hasked.trans_nil hreport

theorem uses_tryCandidate (h : tryCandidate P invocation device params w = .ok r w') :
    Uses [.closing device.slot] w w' := by
  simp only [tryCandidate, bind_eq_ok] at h
  obtain ⟨params₁, w₁, hpin, h⟩ := h
  have hprompted : Uses [] w w₁ :=
    uses_nil_of_traces (fun e he => he.1.handleUse_eq) (pinForGeneration_prompts hpin).2.2
  split at h
  · simp only [bind_eq_ok, closeAndFreeDeviceIgnoringErrors_apply, record_apply] at h
    obtain ⟨_, w₂, hrecorded, _, w₃, hclosed, h⟩ := h
    obtain rfl := (EStateM.Result.ok.inj hrecorded).2
    obtain rfl := (EStateM.Result.ok.inj hclosed).2
    obtain rfl := (EStateM.Result.ok.inj h).2
    have hskipped := uses_record (.diagnostic ⟨"No PIN entered; skipping this authenticator.\n", []⟩) w₁
    exact hprompted.trans (hskipped.trans (uses_closed device _))
  · exact hprompted.trans (uses_askDevice h)

/-- A turn closes the device that it has opened exactly when the device matches the keyfile. -/
theorem uses_tryDevice (h : tryDevice P invocation c device params w = .ok r w') :
    Uses (roundUses (device.slot, decide (device.authenticator.Matches c))) w w' := by
  simp only [tryDevice, bind_eq_ok, lift_eq_ok] at h
  obtain ⟨_, w₁, hopened, info, w₂, hinfo, matched, _, ⟨hmatched, rfl⟩, h⟩ := h
  obtain ⟨-, rfl⟩ := getDevice_eq_ok hopened
  obtain ⟨rfl, rfl⟩ := getDeviceInfo_eq_ok hinfo
  have hopening := uses_record (.fidoDevOpen device.slot) w
  rw [← deviceAaguidMatches_eq_ok hmatched]
  cases matched with
  | false =>
    obtain rfl := (EStateM.Result.ok.inj h).2
    exact hopening
  | true =>
    suffices hclosing : Uses [.closing device.slot] (w.record (.fidoDevOpen device.slot)) w' from
      hopening.trans hclosing
    rw [if_neg (by simp)] at h
    split at h
    · simp only [bind_eq_ok, closeAndFreeDeviceIgnoringErrors_apply] at h
      obtain ⟨_, w₂, hclosed, h⟩ := h
      obtain rfl := (EStateM.Result.ok.inj hclosed).2
      obtain rfl := (EStateM.Result.ok.inj h).2
      exact uses_closed device _
    · exact uses_tryCandidate h

end Turns

/-! ## The search -/

/-- The devices that the loop comes to, with their positions. -/
def reached (P : Platform) (invocation : InvocationState) (c : DeserializedCleartext) :
    ℕ → List Authenticator → AuthenticatorParameters → World → List (ℕ × Authenticator)
  | _, [], _, _ => []
  | slot, a :: devices, params, w =>
    (slot, a) ::
      match tryDevice P invocation c ⟨slot, a⟩ params w with
      | .ok (some params) w => reached P invocation c (slot + 1) devices params w
      | _ => []

section Search

variable {P : Platform} {invocation : InvocationState} {c : DeserializedCleartext} {slot : ℕ}
  {devices : List Authenticator} {params : AuthenticatorParameters} {found : Bool}

theorem reached_prefix (P : Platform) (invocation : InvocationState) (c : DeserializedCleartext)
    (slot : ℕ) (devices : List Authenticator) (params : AuthenticatorParameters) (w : World) :
    (reached P invocation c slot devices params w).map Prod.snd <+: devices := by
  induction devices generalizing slot params w with
  | nil => exact List.prefix_refl []
  | cons a devices ih =>
    simp only [reached, List.map_cons, List.prefix_cons_inj]
    split
    · exact ih _ _ _
    · exact List.nil_prefix

theorem slot_le_of_mem_reached {p : ℕ × Authenticator}
    (hp : p ∈ reached P invocation c slot devices params w) : slot ≤ p.1 := by
  induction devices generalizing slot params w with
  | nil => simp [reached] at hp
  | cons a devices ih =>
    rw [reached] at hp
    rcases List.mem_cons.mp hp with rfl | hp
    · exact Nat.le_refl slot
    · split at hp
      · exact Nat.le_of_succ_le (ih hp)
      · simp at hp

theorem nodup_reached (P : Platform) (invocation : InvocationState) (c : DeserializedCleartext)
    (slot : ℕ) (devices : List Authenticator) (params : AuthenticatorParameters) (w : World) :
    ((reached P invocation c slot devices params w).map Prod.fst).Nodup := by
  induction devices generalizing slot params w with
  | nil => exact List.nodup_nil
  | cons a devices ih =>
    rw [reached, List.map_cons, List.nodup_cons]
    split
    · refine ⟨fun hmem => ?_, ih _ _ _⟩
      obtain ⟨p, hp, rfl⟩ := List.mem_map.mp hmem
      exact absurd (slot_le_of_mem_reached hp) (Nat.not_succ_le_self _)
    · simp

/-- A search that finds nothing comes to every device. -/
theorem reached_of_not_found
    (h : searchDevices P invocation c slot devices params w = .ok false w') :
    (reached P invocation c slot devices params w).map Prod.snd = devices := by
  induction devices generalizing slot params w with
  | nil => rfl
  | cons a devices ih =>
    simp only [searchDevices, bind_eq_ok] at h
    obtain ⟨r, w₁, hturned, h⟩ := h
    cases r with
    | none => exact absurd (EStateM.Result.ok.inj h).1 (by simp)
    | some params₁ => simp [reached, hturned, ih h]

theorem uses_searchDevices
    (h : searchDevices P invocation c slot devices params w = .ok found w') :
    Uses (((reached P invocation c slot devices params w).map fun p =>
      (p.1, decide (p.2.Matches c))).flatMap roundUses) w w' := by
  induction devices generalizing slot params w with
  | nil =>
    obtain rfl := (EStateM.Result.ok.inj h).2
    simp [Uses, reached]
  | cons a devices ih =>
    simp only [searchDevices, bind_eq_ok] at h
    obtain ⟨r, w₁, hturned, h⟩ := h
    have hround := uses_tryDevice hturned
    cases r with
    | none =>
      obtain rfl := (EStateM.Result.ok.inj h).2
      simpa [reached, hturned] using hround
    | some params₁ =>
      simp only [reached, hturned, List.map_cons, List.flatMap_cons]
      exact hround.trans (ih h)

end Search

/-! ## A generation -/

section Generation

variable {P : Platform} {invocation : InvocationState} {devices : List Authenticator}
  {status : ExitStatus}

/-- Opening the keyfile uses no device; each turn of the search behind it is a round. -/
theorem handleUses_of_run
    (h : printSecretConsumingInvocation P invocation devices w = .ok status w') :
    ∃ c params w₁ events, openKeyfile P invocation w = .ok (c, params) w₁ ∧
      w'.trace = w.trace ++ events ∧
      (status ≠ .success →
        (reached P invocation c 0 devices params w₁).map Prod.snd = devices) ∧
      handleUses events = ((reached P invocation c 0 devices params w₁).map fun p =>
        (p.1, decide (p.2.Matches c))).flatMap roundUses := by
  simp only [printSecretConsumingInvocation, bind_eq_ok] at h
  obtain ⟨⟨c, params⟩, w₁, hopen, found, w₂, hsearched, h⟩ := h
  have hkeys : Keeps (Silently Event.IsKeyWork) (openKeyfile P invocation) :=
    keeps_openKeyfile (tolerates_silently fun _ he => he) P invocation
  obtain ⟨-, -, opening, hopening, hwork⟩ := hkeys.of_ok hopen
  obtain ⟨searching, -, hsearching, -⟩ := search_of_searchDevices List.drop_zero hsearched
  have huses := uses_searchDevices hsearched
  have hnone : handleUses opening = [] :=
    handleUses_of_forall fun e he => (hwork e he).handleUse_eq
  rw [Uses, hsearching, handleUses_append, List.append_cancel_left_eq] at huses
  refine ⟨c, params, w₁, opening ++ searching, hopen, ?_, fun hstatus => ?_, ?_⟩
  · cases found with
    | true =>
      obtain rfl := (EStateM.Result.ok.inj h).2
      rw [hsearching, hopening, List.append_assoc]
    | false =>
      cases devices with
      | nil =>
        obtain rfl := (EStateM.Result.ok.inj h).2
        rw [hsearching, hopening, List.append_assoc]
      | cons a devices =>
        obtain rfl := (EStateM.Result.ok.inj h).2
        rw [hsearching, hopening, List.append_assoc]
  · cases found with
    | true => exact absurd (EStateM.Result.ok.inj h).1.symm hstatus
    | false => exact reached_of_not_found hsearched
  · rw [handleUses_append, hnone, huses, List.nil_append]

theorem eachClosedInTime_reached (c : DeserializedCleartext) (params : AuthenticatorParameters)
    (w : World) :
    EachClosedInTime (((reached P invocation c 0 devices params w).map fun p =>
        (p.1, decide (p.2.Matches c))).flatMap roundUses) ↔
      ∀ p ∈ reached P invocation c 0 devices params w, p.2.Matches c := by
  rw [eachClosedInTime_rounds]
  · simp only [List.forall_mem_map, decide_eq_true_eq]
  · simpa [Function.comp_def] using nodup_reached P invocation c 0 devices params w

/-- A generation that returns closes every device it opens, once and before the next is opened,
exactly when it comes to none of another kind than its keyfile names. It comes to all devices
unless one of them gives its secret, and to those up to that one otherwise. -/
theorem eachClosedInTime_iff
    (h : printSecretConsumingInvocation P invocation devices w = .ok status w') :
    ∃ c params w₁ events, openKeyfile P invocation w = .ok (c, params) w₁ ∧
      w'.trace = w.trace ++ events ∧
      (reached P invocation c 0 devices params w₁).map Prod.snd <+: devices ∧
      (status ≠ .success →
        (reached P invocation c 0 devices params w₁).map Prod.snd = devices) ∧
      (EachClosedInTime (handleUses events) ↔
        ∀ p ∈ reached P invocation c 0 devices params w₁, p.2.Matches c) := by
  obtain ⟨c, params, w₁, events, hopen, htrace, hall, huses⟩ := handleUses_of_run h
  refine ⟨c, params, w₁, events, hopen, htrace, reached_prefix _ _ _ _ _ _ _, hall, ?_⟩
  rw [huses]
  exact eachClosedInTime_reached c params w₁

end Generation

/-- A device of the keyfile's kind that has not got its credential. -/
def emptyDevice : Authenticator :=
  { referenceDevice with fidoDevGetAssert := fun _ => (fidoErrNoCredentials, []) }

theorem unrelated_empty (request : AssertionRequest) :
    emptyDevice.Unrelated referenceKeyfile request :=
  ⟨⟨rfl, rfl, rfl, fun _ => rfl⟩, Or.inr (Or.inr (Or.inr ⟨rfl, [], rfl, rfl, rfl⟩))⟩

/-- Behind a device of another kind, and behind one of the keyfile's kind. -/
theorem eachClosedInTime_iff_behind_other : (∃ data w' events,
    printSecretConsumingInvocation (referenceHost referenceDevice)
      (referenceOpening (literal "correct horse")) [otherDevice, referenceDevice]
      (storedWorld data) = .ok .success w' ∧
    w'.trace = (storedWorld data).trace ++ events ∧
    ∃ seen : List (ℕ × Authenticator), seen.map Prod.snd <+: [otherDevice, referenceDevice] ∧
      (EachClosedInTime (handleUses events) ↔ ∀ p ∈ seen, p.2.Matches referenceKeyfile)) ∧
    ∃ data w' events,
      printSecretConsumingInvocation (referenceHost referenceDevice)
        (referenceOpening (literal "correct horse")) [emptyDevice, referenceDevice]
        (storedWorld data) = .ok .success w' ∧
      w'.trace = (storedWorld data).trace ++ events ∧ EachClosedInTime (handleUses events) := by
  constructor
  · obtain ⟨data, params, w₁, w', hopen, hrun⟩ := exists_generationBehindOther
    obtain ⟨c, params', w₁', events, hopen', htrace, hbegin, -, hiff⟩ := eachClosedInTime_iff hrun
    obtain ⟨hpair, -⟩ := EStateM.Result.ok.inj (hopen.symm.trans hopen')
    obtain ⟨rfl, rfl⟩ := Prod.mk.inj hpair
    exact ⟨data, w', events, hrun, htrace, _, hbegin, hiff⟩
  · obtain ⟨data, params, w₁, w', hopen, hrun⟩ := exists_generationBehind unrelated_empty rfl
    obtain ⟨c, params', w₁', events, hopen', htrace, hbegin, -, hiff⟩ := eachClosedInTime_iff hrun
    obtain ⟨hpair, -⟩ := EStateM.Result.ok.inj (hopen.symm.trans hopen')
    obtain ⟨rfl, rfl⟩ := Prod.mk.inj hpair
    refine ⟨data, w', events, hrun, htrace, hiff.mpr fun p hp => ?_⟩
    have hmem := hbegin.subset (List.mem_map_of_mem (f := Prod.snd) hp)
    rcases List.mem_pair.mp hmem with h | h
    · rw [h]
      exact Or.inr rfl
    · rw [h]
      exact Or.inr rfl

/-- The device in front is opened and never closed, although closing would succeed. -/
theorem other_left_open : ∃ data w' events,
    printSecretConsumingInvocation (referenceHost referenceDevice)
      (referenceOpening (literal "correct horse")) [otherDevice, referenceDevice]
      (storedWorld data) = .ok .success w' ∧
    w'.trace = (storedWorld data).trace ++ events ∧
    (∀ a ∈ [otherDevice, referenceDevice], a.fidoDevClose = fidoOk) ∧
    ¬EachClosedInTime (handleUses events) := by
  obtain ⟨data, params, w₁, w', hopen, hrun⟩ := exists_generationBehindOther
  obtain ⟨c, params', w₁', events, hopen', htrace, -, huses⟩ := handleUses_of_run hrun
  obtain ⟨hpair, rfl⟩ := EStateM.Result.ok.inj (hopen.symm.trans hopen')
  obtain ⟨rfl, rfl⟩ := Prod.mk.inj hpair
  refine ⟨data, w', events, hrun, htrace, fun a ha => ?_, ?_⟩
  · rcases List.mem_pair.mp ha with rfl | rfl <;> rfl
  · rw [huses, eachClosedInTime_reached]
    intro hall
    have hother := hall (0, otherDevice) List.mem_cons_self
    exact absurd hother (by decide)

end Khefin
