import Khefin.DeviceListings
import Khefin.ExitStatuses
import Khefin.GenerationSoundness
import Khefin.KeyfileVault
import Khefin.Launches

/-! # How a generation ends

A generation that succeeds has printed the answer to what it asked last. One that does not has
printed nothing, and its status says how far it got. -/

namespace Khefin
open CLibrary ExitingPrograms

/-! ## What was asked last -/

/-- The request that was made last. -/
def lastRequest (trace : List Event) : Option AssertionRequest :=
  trace.foldl (fun last e => match e with
    | .fidoDevGetAssert _ request => some request
    | _ => last) none

theorem lastRequest_append_closing {trace after : List Event} (h : ∀ e ∈ after, e.IsClosing) :
    lastRequest (trace ++ after) = lastRequest trace := by
  induction after generalizing trace with
  | nil => rw [List.append_nil]
  | cons e after ih =>
    rw [← List.concat_append, ih fun e he => h e (List.mem_cons_of_mem _ he)]
    have hclosing := h e List.mem_cons_self
    cases e <;> first | exact hclosing.elim | simp [lastRequest]

theorem lastRequest_of_asked {trace after : List Event} {slot : ℕ} {request : AssertionRequest}
    (h : ∀ e ∈ after, e.IsClosing) :
    lastRequest (trace ++ .fidoDevGetAssert slot request :: after) = some request := by
  rw [← List.concat_append, lastRequest_append_closing h]
  simp [lastRequest]

theorem Search.answered {invocation : InvocationState} {c : DeserializedCleartext}
    {devices : List Authenticator} {slot : ℕ} {past events : List Event} {secret : Option Bytes}
    (h : Search invocation c devices slot past events secret) {answer : Bytes}
    (hanswer : secret = some answer) : ∃ a ∈ devices, ∃ i request before after,
      a.secretFor request = some answer ∧
        events = before ++ .fidoDevGetAssert i request :: after ∧ ∀ e ∈ after, e.IsClosing := by
  induction h with
  | exhausted => simp at hanswer
  | @found slot past events a secret hdevice hturn =>
    generalize hsecret : some secret = answered at hturn
    cases hturn with
    | passed => simp at hsecret
    | @asked prompts after request hcandidate hprompts hsupplied hafter =>
      refine ⟨a, List.mem_of_getElem? hdevice, slot, request, .fidoDevOpen slot :: prompts, after,
        ?_, rfl, hafter⟩
      rw [← hsecret, hanswer]
  | next hdevice hturn hrest ih =>
    obtain ⟨a, ha, i, request, before, after, hsecret, hrest, hafter⟩ := ih hanswer
    exact ⟨a, ha, i, request, _ ++ before, after, hsecret, by rw [hrest, List.append_assoc], hafter⟩

theorem fidoDevGetAssert_of_secretFor {a : Authenticator} {request : AssertionRequest}
    {secret : Bytes} (h : a.secretFor request = some secret) :
    a.fidoDevGetAssert request = (fidoOk, secret) := by
  unfold Authenticator.secretFor at h
  split at h
  · next hok => exact Prod.ext hok (Option.some.inj h)
  · simp at h

/-! ## A search that stops -/

def SameOutput (w w' : World) : Prop := w'.stdout = w.stdout

instance : IsPreorder World SameOutput where
  refl _ := rfl
  trans _ _ _ h h' := Eq.trans h' h

theorem tolerates_sameOutput (S : Event → Prop) : Tolerates S SameOutput := fun _ _ _ => rfl

theorem sameOutput_promptForSecret (P : Platform) (description : CString) (maximumSize : ℕ) :
    Keeps SameOutput (promptForSecret P description maximumSize) :=
  keeps_promptForSecret (tolerates_sameOutput _) (fun _ _ => rfl) P description maximumSize

section Search

variable {P : Platform} {invocation : InvocationState} {c : DeserializedCleartext}

/-- The secret is printed when nothing is left that can stop the turn. -/
theorem sameOutput_of_askDevice_stopped (device : FidoDev) (params : AuthenticatorParameters) :
    KeepsAtStops SameOutput (askDevice P device params) := by
  refine keepsAtStops_bind (keeps_lift _) fun _ => keepsAtStops_bind (fun w => ?_) fun _ => ?_
  · exact related_getSecret (tolerates_sameOutput _) rfl
  refine keepsAtStops_bind ?_ fun _ => keepsAtStops_ite (fun _ => ?_) fun _ => ?_
  · exact keeps_closeAndFreeDeviceIgnoringErrors (tolerates_sameOutput _) device
  · intro w e w' h
    rcases bind_eq_error.mp h with h | ⟨_, _, -, h⟩ <;> simp at h
  · refine keepsAtStops_bind ?_ fun _ => keepsAtStops_pure _
    exact keeps_warnAboutResult (tolerates_sameOutput _) device _

theorem sameOutput_of_tryDevice_stopped (device : FidoDev) (params : AuthenticatorParameters) :
    KeepsAtStops SameOutput (tryDevice P invocation c device params) := by
  have hclose : Keeps SameOutput (closeAndFreeDeviceIgnoringErrors device) :=
    keeps_closeAndFreeDeviceIgnoringErrors (tolerates_sameOutput _) device
  refine keepsAtStops_bind (keeps_getDevice (tolerates_sameOutput _) device) fun _ => ?_
  refine keepsAtStops_bind (keeps_getDeviceInfo device) fun _ => ?_
  refine keepsAtStops_bind (keeps_lift _) fun _ => ?_
  refine keepsAtStops_ite (fun _ => keepsAtStops_pure _) fun _ => ?_
  refine keepsAtStops_ite (fun _ => keepsAtStops_bind hclose fun _ => keepsAtStops_pure _) fun _ => ?_
  refine keepsAtStops_bind ?_ fun params' => ?_
  · exact keeps_pinForGeneration device (sameOutput_promptForSecret P _ _) invocation params
  refine keepsAtStops_ite (fun _ => ?_) fun _ => sameOutput_of_askDevice_stopped device params'
  refine keepsAtStops_bind (keeps_record (tolerates_sameOutput Event.IsRoutine) trivial) fun _ => ?_
  exact keepsAtStops_bind hclose fun _ => keepsAtStops_pure _

theorem sameOutput_of_searchDevices_stopped (devices : List Authenticator) (slot : ℕ)
    (params : AuthenticatorParameters) :
    KeepsAtStops SameOutput (searchDevices P invocation c slot devices params) := by
  induction devices generalizing slot params with
  | nil => exact keepsAtStops_pure false
  | cons a devices ih =>
    intro w e w' h
    rcases bind_eq_error.mp h with h | ⟨r, w₁, hturn, h⟩
    · exact sameOutput_of_tryDevice_stopped ⟨slot, a⟩ params w e w' h
    · cases r with
      | none => simp at h
      | some params' =>
        obtain ⟨events, secret, -, -, hprinted⟩ := turn_of_tryDevice hturn
        cases secret with
        | none => exact trans_of SameOutput hprinted.2 (ih (slot + 1) params' w₁ e w' h)
        | some secret => exact absurd hprinted.1 (by simp)

end Search

/-! ## The stages of a generation -/

/-- A generation, by the stage that it gets to. -/
inductive GenerationRun (P : Platform) (invocation : InvocationState) (w : World) :
    EStateM.Result Halt World ExitStatus → Prop
  | unlisted {e : Halt} (listed : listDevices P = .error e) : GenerationRun P invocation w (.error e w)
  | unopened {devices : List Authenticator} {e : Halt} {w' : World}
      (listed : listDevices P = .ok devices) (opened : openKeyfile P invocation w = .error e w') :
      GenerationRun P invocation w (.error e w')
  | stopped {devices : List Authenticator} {c : DeserializedCleartext}
      {params : AuthenticatorParameters} {w₁ w' : World} {e : Halt}
      (listed : listDevices P = .ok devices) (opened : openKeyfile P invocation w = .ok (c, params) w₁)
      (searched : searchDevices P invocation c 0 devices params w₁ = .error e w') :
      GenerationRun P invocation w (.error e w')
  | missed {devices : List Authenticator} {c : DeserializedCleartext}
      {params : AuthenticatorParameters} {w₁ w' : World}
      (listed : listDevices P = .ok devices) (opened : openKeyfile P invocation w = .ok (c, params) w₁)
      (searched : searchDevices P invocation c 0 devices params w₁ = .ok false w') (m : Message) :
      GenerationRun P invocation w
        (.error (.exit (if devices = [] then .noDevices else .noValidAuthenticator) m) w')
  | found {devices : List Authenticator} {c : DeserializedCleartext}
      {params : AuthenticatorParameters} {w₁ w' : World}
      (listed : listDevices P = .ok devices) (opened : openKeyfile P invocation w = .ok (c, params) w₁)
      (searched : searchDevices P invocation c 0 devices params w₁ = .ok true w') :
      GenerationRun P invocation w (.ok .success w')

theorem generationRun_of_runSubcommand {P : Platform} {invocation : InvocationState}
    (hsub : invocation.subcommand = .generate) (name : CString) (w : World) :
    GenerationRun P invocation w (runSubcommand P name invocation w) := by
  simp only [runSubcommand, hsub]
  cases hlisted : listDevices P with
  | error e =>
    rw [bind_of_error (lift_eq_error.mpr ⟨rfl, rfl⟩)]
    exact .unlisted hlisted
  | ok devices =>
    rw [bind_of_ok (lift_eq_ok.mpr ⟨rfl, rfl⟩)]
    cases hopened : openKeyfile P invocation w with
    | error e w' =>
      rw [bind_of_error (printSecret_of_error hopened devices)]
      exact .unopened hlisted hopened
    | ok opened w₁ =>
      obtain ⟨c, params⟩ := opened
      cases hsearched : searchDevices P invocation c 0 devices params w₁ with
      | error e w' =>
        rw [bind_of_error (printSecret_of_search_error hopened hsearched)]
        exact .stopped hlisted hopened hsearched
      | ok found w' =>
        rw [bind_of_ok (printSecret_of_search_ok hopened hsearched)]
        cases found with
        | true => exact .found hlisted hopened hsearched
        | false =>
          have hmissed := GenerationRun.missed hlisted hopened hsearched
          cases devices with
          | nil => exact hmissed _
          | cons a devices => exact hmissed _

theorem Launch.generationRun {l : Launch} {invocation : InvocationState} {w : World}
    (h : l.parsed = some (invocation, w)) (hsub : invocation.subcommand = .generate) :
    GenerationRun l.platform invocation w l.result := by
  rw [(Launch.result_of_parsed h).1]
  exact generationRun_of_runSubcommand hsub _ w

namespace GenerationRun

variable {P : Platform} {invocation : InvocationState} {w w' : World}
  {r : EStateM.Result Halt World ExitStatus}

/-- Nothing is printed unless the run returns, and it returns with success only. -/
theorem stdout_of_error {e : Halt} (h : GenerationRun P invocation w (.error e w')) :
    w'.stdout = w.stdout := by
  cases h with
  | unlisted => rfl
  | unopened _ opened => exact ((quietly_openKeyfile P invocation).of_error opened).2.1
  | stopped _ opened searched =>
    have hopen := ((quietly_openKeyfile P invocation).of_ok opened).2.1
    exact Eq.trans (sameOutput_of_searchDevices_stopped _ _ _ _ _ _ searched) hopen
  | missed _ opened searched =>
    have hopen := ((quietly_openKeyfile P invocation).of_ok opened).2.1
    obtain ⟨events, secret, -, -, hprinted⟩ := search_of_searchDevices List.drop_zero searched
    cases secret with
    | none => exact hprinted.2.trans hopen
    | some secret => exact absurd hprinted.1 (by simp)

/-- What is printed is the answer of a connected device to the request that was made last. -/
theorem spec_of_found {devices : List Authenticator} {c : DeserializedCleartext}
    {params : AuthenticatorParameters} {w₁ : World}
    (opened : openKeyfile P invocation w = .ok (c, params) w₁)
    (searched : searchDevices P invocation c 0 devices params w₁ = .ok true w') :
    ∃ a ∈ devices, ∃ request secret, a.fidoDevGetAssert request = (fidoOk, secret) ∧
      request.challenge = params.assertionRequest.challenge ∧
      lastRequest w'.trace = some request ∧ w'.stdout = w.stdout ++ hexLine secret := by
  obtain ⟨events, secret, htrace, hsearch, hprinted⟩ :=
    search_of_searchDevices List.drop_zero searched
  cases secret with
  | none => exact absurd hprinted.1 (by simp)
  | some secret =>
    obtain ⟨a, ha, i, request, before, after, hanswer, hevents, hafter⟩ := hsearch.answered rfl
    obtain ⟨-, hopened, -⟩ := (quietly_openKeyfile P invocation).of_ok opened
    have hkeeps : Keeps (Traces (Event.AsksFor params))
        (searchDevices P invocation c 0 devices params) :=
      (searchInvariant_asksFor P invocation c devices params).keeps (frames_asksFor params) rfl
    obtain ⟨events', htrace', hasks⟩ := hkeeps.of_ok searched
    obtain rfl := List.append_cancel_left (htrace.symm.trans htrace')
    refine ⟨a, ha, request, secret, fidoDevGetAssert_of_secretFor hanswer, ?_, ?_, ?_⟩
    · have hrequest := hasks (.fidoDevGetAssert i request) (by simp [hevents])
      rw [show request = _ from hrequest]
      rfl
    · rw [htrace, hevents, ← List.append_assoc, lastRequest_of_asked hafter]
    · rw [hprinted.2, hopened]

end GenerationRun

end Khefin
