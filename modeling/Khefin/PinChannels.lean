import Khefin.Enrol
import Khefin.PassphraseChannels
import Khefin.SearchRuns

/-! # Two ways to give a PIN, for either command

A PIN of the command line is copied into a buffer that holds it and a terminator, but the
copy writes no terminator behind a PIN of the greatest length. A line of standard input
is cut one byte before that length. -/

namespace Khefin
open CLibrary ExitingPrograms

inductive PinChannel | option | line
  deriving DecidableEq

/-- The PIN is that of the last option with one, or there is none and it is the next line of
standard input. -/
def GivenOn (P : Platform) (argv : List CString) (s : CString) (w : World) : PinChannel → Prop
  | .option => ∃ before o after, (P.getoptLong argv).options = before ++ o :: after ∧
      o.letter = 'n' ∧ o.optarg = s ∧ ∀ x ∈ after, x.letter ≠ 'n'
  | .line => (∀ o ∈ (P.getoptLong argv).options, o.letter ≠ 'n') ∧
      P.standardInput = .notTerminal ∧ ∃ rest, w.stdin = s.bytes ++ newline :: rest

/-- Whatever is asked of an authenticator is asked with this PIN. -/
def Event.CarriesPin (s : CString) : Event → Prop
  | .fidoDevMakeCred _ request => request.pin = some s
  | .fidoDevGetAssert _ request => request.pin = some s
  | _ => True

/-- A search comes to a device, with these parameters and in this world. -/
inductive ComesTo (P : Platform) (invocation : InvocationState) (c : DeserializedCleartext) :
    ℕ → List Authenticator → AuthenticatorParameters → World →
      FidoDev → AuthenticatorParameters → World → Prop
  | here {slot a devices params w} :
      ComesTo P invocation c slot (a :: devices) params w ⟨slot, a⟩ params w
  | next {slot a devices params w params₁ w₁ device params' w'} :
      tryDevice P invocation c ⟨slot, a⟩ params w = .ok (some params₁) w₁ →
      ComesTo P invocation c (slot + 1) devices params₁ w₁ device params' w' →
      ComesTo P invocation c slot (a :: devices) params w device params' w'

/-- The run goes on with the turn of the device. -/
theorem searchDevices_of_comesTo {P : Platform} {invocation : InvocationState}
    {c : DeserializedCleartext} {slot : ℕ} {devices : List Authenticator}
    {params params' : AuthenticatorParameters} {w w' : World} {device : FidoDev}
    (h : ComesTo P invocation c slot devices params w device params' w') :
    ∃ rest, searchDevices P invocation c slot devices params w =
      searchDevices P invocation c device.slot (device.authenticator :: rest) params' w' := by
  induction h with
  | @here slot a devices params w => exact ⟨devices, rfl⟩
  | @next slot a devices params w params₁ w₁ device params' w' hturn _ ih =>
    obtain ⟨rest, hrest⟩ := ih
    exact ⟨rest, (bind_of_ok hturn _).trans hrest⟩

/-! ## What is required -/

/-- Every credential that enrolment asks a device with a PIN for is asked for with the PIN given. -/
def EnrolmentDelivers (s : CString) (channel : PinChannel) : Prop :=
  ∀ P argv w invocation w₁ path, parseArgumentsAndGetPassphrase P argv w = .ok invocation w₁ →
    invocation.device = some path → (P.authenticatorAt path).fidoDevHasPin = true →
    GivenOn P argv s w₁ channel →
    Traces (Event.CarriesPin s) w₁ (finalState (enrolDevice P invocation w₁))

/-- In every turn of a device with a PIN, the assertion is asked for with the PIN given for it. -/
def GenerationDelivers (s : CString) (channel : PinChannel) : Prop :=
  ∀ P argv w invocation w₁ c params w₂ devices slot a params' w',
    parseArgumentsAndGetPassphrase P argv w = .ok invocation w₁ →
    openKeyfile P invocation w₁ = .ok (c, params) w₂ →
    ComesTo P invocation c 0 devices params w₂ ⟨slot, a⟩ params' w' → a.fidoDevHasPin = true →
    GivenOn P argv s w' channel →
    Traces (Event.CarriesPin s) w' (finalState (tryDevice P invocation c ⟨slot, a⟩ params' w'))

/-- The terminator is in the buffer, whatever was there before. -/
def TerminatedInBuffer (s : CString) : Prop :=
  ∀ memory : Bytes, memory.length = longestValidPin + 1 →
    (strncpy memory (strndup s.bytes longestValidPin) longestValidPin)[s.length]? = some 0

/-- All four ways end with the PIN that was given. -/
structure PinDelivered (s : CString) : Prop where
  enrolment : ∀ channel, EnrolmentDelivers s channel
  generation : ∀ channel, GenerationDelivers s channel
  terminated : TerminatedInBuffer s

/-! ## The PIN of the invocation -/

theorem optionPin_of_forall {options : List ReportedOption} (h : ∀ o ∈ options, o.letter ≠ 'n')
    (pin : Option CString) : optionPin pin options = pin := by
  induction options with
  | nil => rfl
  | cons o options ih =>
    have hrest := ih fun x hx => h x (List.mem_cons_of_mem o hx)
    simpa [optionPin, h o List.mem_cons_self] using hrest

theorem optionPin_last {before after : List ReportedOption} {o : ReportedOption}
    (ho : o.letter = 'n') (h : ∀ x ∈ after, x.letter ≠ 'n') (pin : Option CString) :
    optionPin pin (before ++ o :: after) = some (strndup o.optarg.bytes longestValidPin) := by
  have hafter := optionPin_of_forall h (some (strndup o.optarg.bytes longestValidPin))
  simpa [optionPin, ho] using hafter

theorem strndup_of_length_le {s : CString} {n : ℕ} (h : s.length ≤ n) : strndup s.bytes n = s := by
  rw [strndup, List.take_of_length_le h, cString_self]

section Delivery

variable {P : Platform} {argv : List CString} {w₀ w w₁ w' : World} {invocation : InvocationState}
  {s : CString} {channel : PinChannel}
  (hparse : parseArgumentsAndGetPassphrase P argv w₀ = .ok invocation w₁)
include hparse

theorem pin_of_givenOn_option (h : GivenOn P argv s w .option) (hs : s.length ≤ longestValidPin) :
    invocation.authenticatorPin = some s := by
  obtain ⟨before, o, after, hoptions, ho, rfl, hafter⟩ := h
  rw [parseArguments_authenticatorPin P argv _ _ _ hparse, hoptions, optionPin_last ho hafter,
    strndup_of_length_le hs]

theorem pin_of_givenOn_line (h : GivenOn P argv s w .line) : invocation.authenticatorPin = none := by
  rw [parseArguments_authenticatorPin P argv _ _ _ hparse]
  exact optionPin_of_forall h.1 none

variable (h : GivenOn P argv s w channel) (hs : s.length < longestValidPin)
  (hnewline : newline ∉ s.bytes)
include h hs hnewline

/-- A PIN below the greatest length arrives, on either channel. -/
theorem authenticatorPin_of_givenOn {device : FidoDev} {description pin : CString}
    (hrun : authenticatorPin P device invocation description w = .ok pin w') : pin = s := by
  cases channel with
  | option =>
    have hgiven := pin_of_givenOn_option hparse h hs.le
    simp only [authenticatorPin, hgiven] at hrun
    rw [← (EStateM.Result.ok.inj hrun).1, cString_strncpy_of_lt hs]
  | line =>
    have hgiven := pin_of_givenOn_line hparse h
    obtain ⟨-, hinput, rest, hstdin⟩ := h
    obtain ⟨secret, w₂, hprompt, hsecret⟩ :=
      promptForSecret_of_line hinput hnewline hstdin description longestValidPin
    simp only [authenticatorPin, hgiven] at hrun
    obtain ⟨rfl, -⟩ := EStateM.Result.ok.inj (hprompt.symm.trans hrun)
    apply CString.ext
    rw [hsecret, List.take_of_length_le (Nat.le_sub_one_of_lt hs)]

theorem pinForEnrolment_of_givenOn {device : FidoDev} {params params' : AuthenticatorParameters}
    (hpin : device.authenticator.fidoDevHasPin = true)
    (hrun : pinForEnrolment P device invocation params w = .ok params' w') :
    params'.authenticatorPin = some s := by
  rw [pinForEnrolment, if_pos hpin] at hrun
  simp only [bind_eq_ok, lift_eq_ok] at hrun
  obtain ⟨_, _, ⟨-, rfl⟩, pin, w₂, hasked, _, _, -, hrun⟩ := hrun
  rw [← (EStateM.Result.ok.inj hrun).1, authenticatorPin_of_givenOn hparse h hs hnewline hasked]

theorem pinForGeneration_of_givenOn {device : FidoDev} {params params' : AuthenticatorParameters}
    (hpin : device.authenticator.fidoDevHasPin = true)
    (hrun : pinForGeneration P device invocation params w = .ok params' w') :
    params'.authenticatorPin = some s := by
  rw [pinForGeneration, if_pos hpin] at hrun
  simp only [bind_eq_ok, lift_eq_ok] at hrun
  obtain ⟨_, _, ⟨-, rfl⟩, _, _, ⟨-, rfl⟩, pin, w₂, hasked, hrun⟩ := hrun
  rw [← (EStateM.Result.ok.inj hrun).1, authenticatorPin_of_givenOn hparse h hs hnewline hasked]

end Delivery

/-! ## Runs -/

theorem GivenOn.record {P : Platform} {argv : List CString} {s : CString} {w : World}
    {channel : PinChannel} (h : GivenOn P argv s w channel) (e : Event) :
    GivenOn P argv s (w.record e) channel := by
  cases channel with
  | option => exact h
  | line => exact h

theorem traces_promptForSecret (s : CString) (P : Platform) (description : CString)
    (maximumSize : ℕ) :
    Keeps (Traces (Event.CarriesPin s)) (promptForSecret P description maximumSize) := by
  apply keeps_promptForSecret
  · exact tolerates_traces fun e he => by cases e <;> trivial
  · exact fun w rest => ⟨[], by simp, by simp⟩

theorem tolerates_carriesPin (s : CString) :
    Tolerates Event.IsRoutine (Traces (Event.CarriesPin s)) :=
  tolerates_traces fun e he => by cases e <;> trivial

theorem enrolmentDelivers_of_lt {s : CString} (hnewline : newline ∉ s.bytes)
    (hs : s.length < longestValidPin) (channel : PinChannel) : EnrolmentDelivers s channel := by
  intro P argv w invocation w₁ path hparse hdevice hpin hgiven
  have hprompt := traces_promptForSecret s P
  refine related_bind (related_enrolCredential (tolerates_carriesPin s) ?_ ?_) ?_
  · exact fun path params _ => keeps_pinForEnrolment (hprompt _ _) _ _ _ _
  · intro path' params params' w' hdevice' hrun
    obtain rfl : path = path' := Option.some.inj (hdevice.symm.trans hdevice')
    refine traces_record ?_ w'
    exact pinForEnrolment_of_givenOn hparse (hgiven.record _) hs hnewline hpin hrun
  · rintro ⟨params, deviceInfo⟩ w' -
    have hkeys : Tolerates Event.IsKeyWork (Traces (Event.CarriesPin s)) :=
      tolerates_traces fun e he => by cases e <;> trivial
    refine keeps_bind (keeps_sealKeyfile hkeys _ _ _ _) (fun f => ?_) w'
    exact keeps_writeFile (fun w path content => ⟨[], by simp, by simp⟩) P f

theorem generationDelivers_of_lt {s : CString} (hnewline : newline ∉ s.bytes)
    (hs : s.length < longestValidPin) (channel : PinChannel) : GenerationDelivers s channel := by
  intro P argv w invocation w₁ c params w₂ devices slot a params' w' hparse _ _ hpin hgiven
  refine related_tryDevice (tolerates_carriesPin s) (fun w output => traces_printf output w) ?_ ?_
  · exact fun _ => keeps_pinForGeneration ⟨slot, a⟩ (traces_promptForSecret s P _ _) _ _ _
  · intro _ params'' w'' hrun _
    refine traces_record ?_ w''
    exact pinForGeneration_of_givenOn hparse (hgiven.record _) hs hnewline hpin hrun

theorem terminatedInBuffer_of_lt {s : CString} (hs : s.length < longestValidPin) :
    TerminatedInBuffer s := by
  intro memory _
  simp only [CString.length] at hs ⊢
  rw [strndup_of_length_le hs.le, strncpy, List.getElem?_append_left, List.getElem?_take_of_lt hs,
    List.getElem?_append_right (Nat.le_refl s.bytes.length)]
  · rw [Nat.sub_self]
    rfl
  · simpa using hs

/-! ## A PIN of the greatest length -/

/-- A device with a PIN, and no terminator anywhere in the buffer for it. -/
def fullDevice : Authenticator :=
  { referenceDevice with
    fidoDevHasPin := true
    pinMemory := List.replicate (longestValidPin + 1) 0x78 }

/-- Nothing but the PIN is left open. -/
def pinHost : Platform :=
  { referenceHost fullDevice with
    getoptLong := fun _ => ⟨[⟨'d', literal "/dev/hidraw0"⟩, ⟨'f', literal "keyfile"⟩,
      ⟨'p', literal "correct horse"⟩, ⟨'k', literal "low"⟩], [literal "enrol"]⟩ }

theorem parseArguments_pinHost (w : World) :
    parseArgumentsAndGetPassphrase pinHost [literal "khefin", literal "enrol"] w =
      .ok referenceInvocation w := by
  rfl

/-- What there is before a PIN is asked for. -/
def freshParameters : AuthenticatorParameters where
  userId := [0]
  clientDataHash := List.replicate clientDataHashSizeBytes 0x41
  userName := letterA
  userDisplayName := letterA
  relyingPartyId := newRelyingPartyId pinHost
  relyingPartyName := letterA
  credentialId := []
  salt := referenceEntropy.hmacSalt.toList
  authenticatorPin := none

/-- The credential is made with the PIN that was asked for. -/
theorem made_of_pinForEnrolment {w w' : World} {params : AuthenticatorParameters}
    (hrun : pinForEnrolment pinHost ⟨0, fullDevice⟩ referenceInvocation freshParameters
      (w.record (.fidoDevOpen 0)) = .ok params w') :
    .fidoDevMakeCred 0 params.credentialRequest ∈
      (finalState (enrolDevice pinHost referenceInvocation w)).trace := by
  have hsteps : enrolCredential pinHost referenceInvocation w =
      (pinForEnrolment pinHost ⟨0, fullDevice⟩ referenceInvocation freshParameters >>=
        fun params => createCredential pinHost ⟨0, fullDevice⟩ params >>= fun params =>
          closeAndFreeDeviceIgnoringErrors ⟨0, fullDevice⟩ >>= fun _ =>
            pure (params, fullDevice.cborInfo)) (w.record (.fidoDevOpen 0)) := rfl
  have hmade : createCredential pinHost ⟨0, fullDevice⟩ params w' =
      .ok { params with credentialId := [0xc1, 0xc2] }
        (w'.record (.fidoDevMakeCred 0 params.credentialRequest)) := rfl
  rw [bind_of_ok hrun, bind_of_ok hmade] at hsteps
  have hrest : Keeps (Traces fun _ => True) (do
      let f ← sealKeyfile pinHost referenceInvocation { params with credentialId := [0xc1, 0xc2] }
        fullDevice.cborInfo
      writeFile pinHost f : Program Unit) := by
    refine keeps_bind (keeps_sealKeyfile (tolerates_traces fun _ _ => trivial) _ _ _ _) fun f => ?_
    exact keeps_writeFile (fun w path content => ⟨[], by simp, by simp⟩) pinHost f
  obtain ⟨events, htrace, -⟩ := hrest
    ((w'.record (.fidoDevMakeCred 0 params.credentialRequest)).record (.fidoDevClose 0))
  have hrun : enrolDevice pinHost referenceInvocation w = _ := bind_of_ok hsteps _
  rw [hrun, htrace]
  simp

/-- As a line, it loses its last byte. -/
theorem not_enrolmentDelivers_line {s : CString} (hnewline : newline ∉ s.bytes)
    (hs : s.length = longestValidPin) : ¬EnrolmentDelivers s .line := by
  intro h
  have hstdin : ((World.leave (s.bytes ++ [newline]) emptyWorld).record (.fidoDevOpen 0)).stdin =
      s.bytes ++ newline :: [] := rfl
  obtain ⟨cut, w', hprompt, hcut⟩ := promptForSecret_of_line (P := pinHost) rfl hnewline hstdin
    (literal "authenticator PIN") longestValidPin
  have hne : cut.length ≠ 0 := by
    rw [CString.length, hcut, List.length_take]
    simp only [CString.length] at hs
    rw [hs]
    decide
  have hrun : pinForEnrolment pinHost ⟨0, fullDevice⟩ referenceInvocation freshParameters
      ((World.leave (s.bytes ++ [newline]) emptyWorld).record (.fidoDevOpen 0)) =
        .ok { freshParameters with authenticatorPin := some cut } w' := by
    refine (bind_of_ok hprompt _).trans ?_
    rw [stopIf_neg hne]
    rfl
  have hmem := made_of_pinForEnrolment hrun
  obtain ⟨events, htrace, hcarries⟩ := h pinHost [literal "khefin", literal "enrol"] _
    referenceInvocation (World.leave (s.bytes ++ [newline]) emptyWorld) (literal "/dev/hidraw0")
    (parseArguments_pinHost _) rfl rfl ⟨by decide, rfl, [], rfl⟩
  rw [htrace] at hmem
  have hpin : some cut = some s := hcarries _ hmem
  have hlength := congrArg CString.length (Option.some.inj hpin)
  simp only [CString.length] at hs hlength
  rw [hcut, List.length_take, hs] at hlength
  exact absurd hlength (by decide)

/-- As an argument, it runs on into what the buffer held before. -/
theorem not_terminatedInBuffer {s : CString} (hs : s.length = longestValidPin) :
    ¬TerminatedInBuffer s := by
  intro h
  have hlast := h fullDevice.pinMemory List.length_replicate
  have hcopied : ((s.bytes ++ List.replicate longestValidPin 0).take longestValidPin).length =
      s.length := by
    simp only [CString.length] at hs ⊢
    rw [List.length_take, List.length_append, hs, Nat.min_eq_left (Nat.le_add_right _ _)]
  rw [strndup_of_length_le hs.le, strncpy, List.getElem?_append_right hcopied.le, hcopied,
    Nat.sub_self] at hlast
  exact absurd hlast (by decide)

/-- A PIN is delivered in all four ways exactly when it is shorter than the longest valid one. -/
theorem pinDelivered_iff {s : CString} (hnewline : newline ∉ s.bytes)
    (hs : s.length ≤ longestValidPin) : PinDelivered s ↔ s.length < longestValidPin := by
  constructor
  · intro h
    by_contra hlt
    have hfull : s.length = longestValidPin := Nat.le_antisymm hs (Nat.le_of_not_lt hlt)
    exact not_enrolmentDelivers_line hnewline hfull (h.enrolment .line)
  · intro hlt
    exact ⟨enrolmentDelivers_of_lt hnewline hlt, generationDelivers_of_lt hnewline hlt,
      terminatedInBuffer_of_lt hlt⟩

theorem pinDelivered_short : PinDelivered (literal "123456") :=
  (pinDelivered_iff (by decide) (by decide)).mpr (by decide)

/-- A PIN of the greatest length. -/
def longPin : CString :=
  ⟨List.replicate longestValidPin 0x39, fun h => absurd (List.eq_of_mem_replicate h) (by decide)⟩

theorem not_pinDelivered_long : ¬EnrolmentDelivers longPin .line ∧ ¬TerminatedInBuffer longPin ∧
    ¬PinDelivered longPin := by
  have hlength : longPin.length = longestValidPin := List.length_replicate
  have hnewline : newline ∉ longPin.bytes :=
    fun h => absurd (List.eq_of_mem_replicate h) (by decide)
  have hline := not_enrolmentDelivers_line hnewline hlength
  exact ⟨hline, not_terminatedInBuffer hlength, fun h => hline (h.enrolment .line)⟩

end Khefin
