import Khefin.DeviceTurns

/-! # What a search for a device keeps

A relation between the worlds before and after that survives idle steps and output
needs to be looked at only where a request is made. It is carried through a turn,
and by an invariant on the parameters through the loop. -/

namespace Khefin
open CLibrary ExitingPrograms

theorem keeps_warnAboutResult {R : World → World → Prop} [IsPreorder World R]
    (hR : Tolerates Event.IsRoutine R) (device : FidoDev) (result : ℤ) :
    Keeps R (warnAboutResult device result) :=
  keeps_ite (fun _ => keeps_pure _) fun _ =>
    keeps_ite (fun _ => keeps_record hR trivial) fun _ => keeps_record hR trivial

theorem keeps_pinForGeneration {R : World → World → Prop} [IsPreorder World R] {P : Platform}
    (device : FidoDev)
    (hprompt : Keeps R (promptForSecret P (pinPrompt device.authenticator) longestValidPin))
    (invocation : InvocationState) (params : AuthenticatorParameters) :
    Keeps R (pinForGeneration P device invocation params) := by
  refine keeps_ite (fun _ => ?_) fun _ => keeps_pure _
  refine keeps_bind (keeps_lift _) fun _ => keeps_bind (keeps_lift _) fun _ => ?_
  exact keeps_bind (keeps_authenticatorPin hprompt _ _) fun _ => keeps_pure _

/-- The relation holds across idle steps and across output. -/
structure Frames (R : World → World → Prop) : Prop where
  idle : ∀ w w', Idly w w' → R w w'
  printed : ∀ w output, R w (World.printf output w)

variable {R : World → World → Prop}

theorem Frames.of_idly (hR : Frames R) {α : Type} {x : Program α} (h : Keeps Idly x) : Keeps R x :=
  h.mono hR.idle

theorem Frames.tolerates (hR : Frames R) : Tolerates Event.IsRoutine R :=
  fun w e he => hR.idle _ _ (tolerates_idly w e he)

/-! ## One turn -/

section Turn

variable [IsPreorder World R] (hR : Tolerates Event.IsRoutine R) {P : Platform}
  {invocation : InvocationState} {c : DeserializedCleartext} {device : FidoDev} {slot : ℕ}
  {a : Authenticator} {params : AuthenticatorParameters} {w : World}
include hR

/-- The one request is made of a world that nothing has happened to. -/
theorem related_getSecret
    (h : R w (w.record (.fidoDevGetAssert device.slot params.assertionRequest))) :
    R w (finalState (getSecretFromAuthenticatorParams P device params w)) := by
  have hexit : ∀ status format arguments,
      Keeps R (closeAndExit (α := ℤ × Bytes) device status format arguments) :=
    fun _ _ _ => keeps_closeAndExit hR _ _ _ _
  unfold getSecretFromAuthenticatorParams
  split
  · exact hexit _ _ _ w
  split
  · exact hexit _ _ _ w
  split
  · exact hexit _ _ _ w
  iterate 6
    refine related_bind (keeps_requireOk hR _ _ _ _) fun _ _ hw => ?_
    obtain ⟨-, rfl⟩ := requireOk_eq_ok.mp hw
  refine related_bind h fun _ w₁ _ => ?_
  refine keeps_ite (fun _ => ?_) (fun _ => ?_) w₁
  · exact keeps_ite (fun _ => keeps_pure _) fun _ => hexit _ _ _
  · refine keeps_ite (fun _ => hexit _ _ _) fun _ => ?_
    exact keeps_bind (keeps_lift _) fun _ => keeps_pure _

variable (hprinted : ∀ w output, R w (World.printf output w))
include hprinted

theorem related_askDevice
    (h : R w (w.record (.fidoDevGetAssert device.slot params.assertionRequest))) :
    R w (finalState (askDevice P device params w)) := by
  refine related_bind (keeps_lift _ w) fun _ w₁ hw₁ => ?_
  obtain ⟨-, rfl⟩ := lift_eq_ok.mp hw₁
  refine related_bind (related_getSecret hR h) fun r w₁ _ => ?_
  refine keeps_bind (keeps_closeAndFreeDeviceIgnoringErrors hR _) (fun _ => ?_) w₁
  refine keeps_ite (fun _ => ?_) fun _ => ?_
  · exact keeps_bind (keeps_modify fun w => hprinted w _) fun _ => keeps_pure _
  · exact keeps_bind (keeps_warnAboutResult hR _ _) fun _ => keeps_pure _

/-- A turn keeps what asking for the PIN and the request made with it would. Both are made
for candidates only, and no request is made with an empty PIN. -/
theorem related_tryDevice
    (hpin : a.IsCandidate c → R (w.record (.fidoDevOpen slot))
      (finalState (pinForGeneration P ⟨slot, a⟩ invocation params (w.record (.fidoDevOpen slot)))))
    (hask : a.IsCandidate c → ∀ params' w',
      pinForGeneration P ⟨slot, a⟩ invocation params (w.record (.fidoDevOpen slot)) =
        .ok params' w' →
      (a.fidoDevHasPin = true → params'.authenticatorPin.map CString.length ≠ some 0) →
      R w' (w'.record (.fidoDevGetAssert slot params'.assertionRequest))) :
    R w (finalState (tryDevice P invocation c ⟨slot, a⟩ params w)) := by
  have hclose : Keeps R (closeAndFreeDeviceIgnoringErrors ⟨slot, a⟩) :=
    keeps_closeAndFreeDeviceIgnoringErrors hR _
  refine related_bind (keeps_getDevice hR _ w) fun _ w₁ hopened => ?_
  obtain ⟨hfido2, rfl⟩ := getDevice_eq_ok hopened
  refine related_bind (keeps_getDeviceInfo _ _) fun info w₂ hinfo => ?_
  obtain ⟨rfl, rfl⟩ := getDeviceInfo_eq_ok hinfo
  refine related_bind (keeps_lift _ _) fun matched w₃ hlift => ?_
  obtain ⟨hmatched, rfl⟩ := lift_eq_ok.mp hlift
  have hmatch := deviceAaguidMatches_eq_ok hmatched
  split
  · exact keeps_pure _ _
  next hsome =>
  split
  · exact keeps_bind hclose (fun _ => keeps_pure _) _
  next hsupported =>
  have hcandidate : a.IsCandidate c :=
    ⟨hfido2, by simpa [hmatch] using hsome, by simpa using hsupported⟩
  refine related_bind (hpin hcandidate) fun params' w' hpinned => ?_
  split
  · refine related_bind (keeps_modify (fun w => hR w _ ?_) w') fun _ w₂ _ => ?_
    · trivial
    · exact keeps_bind hclose (fun _ => keeps_pure _) w₂
  · next hsupplied =>
    refine related_askDevice hR hprinted (hask hcandidate params' w' hpinned ?_)
    exact fun hhas hempty => hsupplied ⟨hhas, hempty⟩

omit hR hprinted in
/-- Where idle steps are kept, only the request has to be. -/
theorem keeps_tryDevice (hR : Frames R) (h : ∀ w params' w',
      pinForGeneration P device invocation params w = .ok params' w' →
      R w' (w'.record (.fidoDevGetAssert device.slot params'.assertionRequest))) :
    Keeps R (tryDevice P invocation c device params) := by
  intro w
  have hprompt : Keeps Idly (promptForSecret P (pinPrompt device.authenticator) longestValidPin) :=
    idly_promptForSecret _ _ _
  refine related_tryDevice hR.tolerates hR.printed (fun _ => ?_) fun _ params' w' hpin _ => ?_
  · exact hR.of_idly (keeps_pinForGeneration device hprompt _ _) _
  · exact h _ params' w' hpin

end Turn

/-! ## The loop -/

/-- An invariant of the parameters, given the devices already tried, under which every request
keeps the relation. -/
structure SearchInvariant (P : Platform) (invocation : InvocationState)
    (c : DeserializedCleartext) (devices : List Authenticator) (R : World → World → Prop)
    (I : List Authenticator → AuthenticatorParameters → Prop) : Prop where
  asked : ∀ before a after params w params' w', devices = before ++ a :: after → I before params →
    pinForGeneration P ⟨before.length, a⟩ invocation params w = .ok params' w' →
    R w' (w'.record (.fidoDevGetAssert before.length params'.assertionRequest))
  passed : ∀ before a after params w params' w', devices = before ++ a :: after →
    I before params →
    tryDevice P invocation c ⟨before.length, a⟩ params w = .ok (some params') w' →
    I (before ++ [a]) params'

section Loop

variable [IsPreorder World R] (hR : Frames R) {P : Platform} {invocation : InvocationState}
  {c : DeserializedCleartext} {devices : List Authenticator}
  {I : List Authenticator → AuthenticatorParameters → Prop}
include hR

theorem SearchInvariant.keeps_from (h : SearchInvariant P invocation c devices R I)
    {before after : List Authenticator} (hd : devices = before ++ after)
    {params : AuthenticatorParameters} (hI : I before params) :
    Keeps R (searchDevices P invocation c before.length after params) := by
  induction after generalizing before params with
  | nil => exact keeps_pure _
  | cons a after ih =>
    intro w
    refine related_bind (keeps_tryDevice hR (h.asked before a after params · · · hd hI) w)
      fun r w' hturn => ?_
    cases r with
    | none => exact refl_of R w'
    | some params' =>
      have hnext : Keeps R (searchDevices P invocation c (before ++ [a]).length after params') :=
        ih (by rw [hd, List.append_assoc]; rfl)
          (h.passed before a after params w params' w' hd hI hturn)
      rw [List.length_append] at hnext
      exact hnext w'

/-- A search from the first device on. -/
theorem SearchInvariant.keeps (h : SearchInvariant P invocation c devices R I)
    {params : AuthenticatorParameters} (hI : I [] params) :
    Keeps R (searchDevices P invocation c 0 devices params) :=
  h.keeps_from hR (List.nil_append devices).symm hI

/-- What no request breaks is kept by every search. -/
theorem keeps_searchDevices (h : ∀ slot request, Keeps R (record (.fidoDevGetAssert slot request)))
    (P : Platform) (invocation : InvocationState) (c : DeserializedCleartext)
    (devices : List Authenticator) (params : AuthenticatorParameters) :
    Keeps R (searchDevices P invocation c 0 devices params) := by
  have hI : SearchInvariant P invocation c devices R fun _ _ => True :=
    ⟨fun _ _ _ _ _ _ w' _ _ _ => h _ _ w', fun _ _ _ _ _ _ _ _ _ _ => trivial⟩
  exact hI.keeps hR trivial

end Loop

end Khefin
