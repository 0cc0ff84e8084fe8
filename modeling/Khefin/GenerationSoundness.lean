import Khefin.AssertionRequests
import Khefin.DeviceSearch
import Khefin.Main

/-! # What a generation that returns has done

A turn opens its device, may ask for a PIN, and makes at most one request. A search is a
row of turns that were not answered, with one that was at its end or none. What is
required of a generation is read off that shape. -/

namespace Khefin
open CLibrary ExitingPrograms Histories

/-! ## Printing a secret -/

theorem hexDigit_injective {n m : UInt8} (hn : n < 16) (hm : m < 16) (h : hexDigit n = hexDigit m) :
    n = m := by
  have hall : ∀ n m : Fin 16, hexDigit (UInt8.ofNat n) = hexDigit (UInt8.ofNat m) → n = m := by
    decide
  have hsmall : ∀ k : UInt8, k < 16 → UInt8.ofNat k.toNat = k := fun k _ => UInt8.ofNat_toNat
  have heq := hall ⟨n.toNat, UInt8.lt_iff_toNat_lt.mp hn⟩ ⟨m.toNat, UInt8.lt_iff_toNat_lt.mp hm⟩
    (by simpa only [hsmall n hn, hsmall m hm] using h)
  exact UInt8.toNat_inj.mp (by simpa using heq)

theorem hexDigits_injective {b b' : UInt8} (hhigh : hexDigit (b / 16) = hexDigit (b' / 16))
    (hlow : hexDigit (b % 16) = hexDigit (b' % 16)) : b = b' := by
  have hquotient : ∀ b : UInt8, b / 16 < 16 := by
    intro b
    rw [UInt8.lt_iff_toNat_lt, UInt8.toNat_div]
    have := b.toNat_lt
    change b.toNat / 16 < 16
    omega
  have hremainder : ∀ b : UInt8, b % 16 < 16 := by
    intro b
    rw [UInt8.lt_iff_toNat_lt, UInt8.toNat_mod]
    exact Nat.mod_lt _ (by decide)
  have hdiv := congrArg UInt8.toNat (hexDigit_injective (hquotient b) (hquotient b') hhigh)
  have hmod := congrArg UInt8.toNat (hexDigit_injective (hremainder b) (hremainder b') hlow)
  apply UInt8.toNat_inj.mp
  rw [UInt8.toNat_div, UInt8.toNat_div] at hdiv
  rw [UInt8.toNat_mod, UInt8.toNat_mod] at hmod
  change b.toNat / 16 = b'.toNat / 16 at hdiv
  change b.toNat % 16 = b'.toNat % 16 at hmod
  omega

/-- Distinct secrets are printed as distinct lines. -/
theorem hexLine_injective : Function.Injective hexLine := by
  intro secret secret' h
  have hflat := List.append_cancel_right h
  clear h
  induction secret generalizing secret' with
  | nil =>
    cases secret' with
    | nil => rfl
    | cons b secret' => simp at hflat
  | cons b secret ih =>
    cases secret' with
    | nil => simp at hflat
    | cons b' secret' =>
      simp only [List.flatMap_cons, List.cons_append, List.nil_append, List.cons.injEq] at hflat
      obtain ⟨hhigh, hlow, hrest⟩ := hflat
      rw [hexDigits_injective hhigh hlow, ih hrest]

/-! ## One turn -/

/-- Closing a device, and a report. -/
def Event.IsClosing : Event → Prop
  | .fidoDevClose _ | .diagnostic _ => True
  | _ => False

/-- The secret the device answers the request with. -/
def Authenticator.secretFor (a : Authenticator) (request : AssertionRequest) : Option Bytes :=
  if (a.fidoDevGetAssert request).1 = fidoOk then some (a.fidoDevGetAssert request).2 else none

/-- The events of a turn, and the secret the device answers with. -/
inductive Turn (invocation : InvocationState) (c : DeserializedCleartext) (slot : ℕ)
    (a : Authenticator) (past : List Event) : List Event → Option Bytes → Prop
  | passed {prompts after : List Event}
      (hprompts : ∀ e ∈ prompts, e.IsPrompt ∧ a.LeavesPin c)
      (hafter : ∀ e ∈ after, e.IsClosing) :
      Turn invocation c slot a past (.fidoDevOpen slot :: prompts ++ after) none
  | asked {prompts after : List Event} {request : AssertionRequest}
      (hcandidate : a.IsCandidate c)
      (hprompts : ∀ e ∈ prompts, e.IsPrompt ∧ a.LeavesPin c)
      (hsupplied : a.fidoDevHasPin = true → ∃ pin,
        suppliedPin invocation (past ++ .fidoDevOpen slot :: prompts) = some pin ∧ pin.length ≠ 0)
      (hafter : ∀ e ∈ after, e.IsClosing) :
      Turn invocation c slot a past
        (.fidoDevOpen slot :: prompts ++ .fidoDevGetAssert slot request :: after)
        (a.secretFor request)

section Turns

variable {P : Platform} {invocation : InvocationState} {c : DeserializedCleartext}
  {device : FidoDev} {slot : ℕ} {a : Authenticator} {params params' : AuthenticatorParameters}
  {w w' : World}

theorem closing_closed (device : FidoDev) (w : World) :
    Silently Event.IsClosing w (w.closed device) :=
  keeps_bind (silently_record trivial)
    (fun _ => keeps_ite (fun _ => keeps_pure _) fun _ => silently_record trivial) w

theorem closing_warnAboutResult (device : FidoDev) (result : ℤ) :
    Keeps (Silently Event.IsClosing) (warnAboutResult device result) :=
  keeps_ite (fun _ => keeps_pure _) fun _ =>
    keeps_ite (fun _ => silently_record trivial) fun _ => silently_record trivial

theorem prompting_promptForSecret (description : CString) (maximumSize : ℕ) :
    Keeps (Silently Event.IsPrompt) (promptForSecret P description maximumSize) :=
  keeps_promptForSecret (tolerates_silently fun _ he => he) (fun w rest => silently_leave rest w) P
    description maximumSize

/-- A device that holds no PIN is not asked for one. -/
theorem pinForGeneration_prompts
    (h : pinForGeneration P device invocation params w = .ok params' w') :
    Silently (fun e => e.IsPrompt ∧ device.authenticator.fidoDevHasPin = true) w w' := by
  cases hhas : device.authenticator.fidoDevHasPin with
  | false =>
    rw [pinForGeneration, if_neg (by simp [hhas])] at h
    obtain ⟨-, rfl⟩ := EStateM.Result.ok.inj h
    exact refl_of (Silently _) w
  | true =>
    have hprompted : Keeps (Silently Event.IsPrompt) (pinForGeneration P device invocation params) :=
      keeps_pinForGeneration device (prompting_promptForSecret _ _) invocation params
    exact (hprompted.of_ok h).mono fun e he => ⟨he, rfl⟩

/-- The PIN that a request is made with was supplied, and is not empty. -/
theorem supplied_of_pinForGeneration (hhas : device.authenticator.fidoDevHasPin = true)
    (h : pinForGeneration P device invocation params w = .ok params' w')
    (hne : params'.authenticatorPin.map CString.length ≠ some 0) :
    ∃ pin, suppliedPin invocation w'.trace = some pin ∧ pin.length ≠ 0 := by
  have hpin := pinForGeneration_pin h
  rw [if_pos hhas] at hpin
  unfold suppliedPin
  cases hgiven : invocation.authenticatorPin with
  | none =>
    obtain ⟨trace, htrace⟩ : ∃ pin, enteredPin w'.trace = some pin := by
      unfold pinForGeneration at h
      rw [if_pos hhas] at h
      simp only [authenticatorPin, hgiven, bind_eq_ok, lift_eq_ok] at h
      obtain ⟨_, _, -, _, _, -, entered, w₁, hentered, h⟩ := h
      obtain ⟨-, rfl⟩ := EStateM.Result.ok.inj h
      obtain ⟨trace, ht⟩ := promptForSecret_spec hentered
      exact ⟨entered, by simp [ht]⟩
    refine ⟨trace, htrace, fun hlength => hne ?_⟩
    simp [hpin, hgiven, htrace, hlength]
  | some pin =>
    refine ⟨pin, rfl, fun hlength => hne ?_⟩
    have hshort : pin.length < longestValidPin := by
      rw [hlength]
      decide
    simp [hpin, hgiven, cString_strncpy_of_lt hshort, hlength]

/-- What is printed, and whether the search ends, for the secret in the answer. -/
def Printed (w w' : World) (found : Bool) : Option Bytes → Prop
  | none => found = false ∧ w'.stdout = w.stdout
  | some secret => found = true ∧ w'.stdout = w.stdout ++ hexLine secret

theorem askDevice_eq_ok {r : Option AuthenticatorParameters}
    (h : askDevice P device params w = .ok r w') :
    ∃ after, w'.trace =
        w.trace ++ .fidoDevGetAssert device.slot params.assertionRequest :: after ∧
      (∀ e ∈ after, e.IsClosing) ∧
      Printed w w' r.isNone (device.authenticator.secretFor params.assertionRequest) := by
  simp only [askDevice, bind_eq_ok, lift_eq_ok, closeAndFreeDeviceIgnoringErrors_apply] at h
  obtain ⟨_, w, ⟨-, rfl⟩, ⟨result, secret⟩, w₁, hsecret, _, w₂, hclosed, h⟩ := h
  obtain ⟨-, rfl, hresult, -, hanswer⟩ := getSecret_spec hsecret
  obtain rfl := (EStateM.Result.ok.inj hclosed).2
  obtain ⟨-, hout, events, htrace, hevents⟩ :=
    closing_closed device (w.record (.fidoDevGetAssert device.slot params.assertionRequest))
  unfold Authenticator.secretFor
  rw [← hresult]
  dsimp only at h
  split at h
  · next hok =>
    simp only [bind_eq_ok, modify_apply] at h
    obtain ⟨_, _, hprinted, h⟩ := h
    obtain ⟨-, rfl⟩ := EStateM.Result.ok.inj hprinted
    obtain ⟨rfl, rfl⟩ := EStateM.Result.ok.inj h
    refine ⟨events, by simp [htrace], hevents, ?_⟩
    rw [if_pos hok, ← hanswer hok]
    exact ⟨rfl, by rw [World.printf_stdout, hout, World.record_stdout]⟩
  · next hok =>
    simp only [bind_eq_ok] at h
    obtain ⟨_, _, hwarned, h⟩ := h
    obtain ⟨rfl, rfl⟩ := EStateM.Result.ok.inj h
    obtain ⟨-, hout', events', htrace', hevents'⟩ := (closing_warnAboutResult _ _).of_ok hwarned
    refine ⟨events ++ events', by simp [htrace', htrace], ?_, ?_⟩
    · intro e he
      exact (List.mem_append.mp he).elim (hevents e) (hevents' e)
    · rw [if_neg hok]
      exact ⟨rfl, by rw [hout', hout, World.record_stdout]⟩

theorem turn_of_tryCandidate {r : Option AuthenticatorParameters} {w₀ : World}
    (hcandidate : a.IsCandidate c) (hw : w₀.record (.fidoDevOpen slot) = w)
    (h : tryCandidate P invocation ⟨slot, a⟩ params w = .ok r w') :
    ∃ events secret, w'.trace = w₀.trace ++ events ∧
      Turn invocation c slot a w₀.trace events secret ∧ Printed w w' r.isNone secret := by
  simp only [tryCandidate, bind_eq_ok] at h
  obtain ⟨params₁, w₁, hpin, h⟩ := h
  obtain ⟨-, hout, prompts, htrace, hprompts⟩ := pinForGeneration_prompts hpin
  have hleaves : ∀ e ∈ prompts, e.IsPrompt ∧ a.LeavesPin c := fun e he =>
    ⟨(hprompts e he).1, hcandidate.agrees, hcandidate.supportsHmacSecret, (hprompts e he).2⟩
  have hopened : w₁.trace = w₀.trace ++ .fidoDevOpen slot :: prompts := by simp [htrace, ← hw]
  split at h
  · simp only [bind_eq_ok, closeAndFreeDeviceIgnoringErrors_apply, record_apply] at h
    obtain ⟨_, w₂, hrecorded, _, w₃, hclosed, h⟩ := h
    obtain rfl := (EStateM.Result.ok.inj hrecorded).2
    obtain rfl := (EStateM.Result.ok.inj hclosed).2
    obtain ⟨rfl, rfl⟩ := EStateM.Result.ok.inj h
    let skipped : Event := .diagnostic ⟨"No PIN entered; skipping this authenticator.\n", []⟩
    have hskipped : Silently Event.IsClosing w₁ (w₁.record skipped) :=
      silently_record (S := Event.IsClosing) (e := skipped) trivial w₁
    obtain ⟨-, hout', after, hafter, hclosing⟩ := trans_of (Silently Event.IsClosing) hskipped
      (closing_closed ⟨slot, a⟩ (w₁.record skipped))
    refine ⟨_, none, ?_, .passed hleaves hclosing, rfl, hout'.trans hout⟩
    rw [hafter, hopened, List.append_assoc]
  · next hne =>
    obtain ⟨after, hafter, hclosing, hprinted⟩ := askDevice_eq_ok h
    refine ⟨_, a.secretFor params₁.assertionRequest, ?_,
      .asked hcandidate hleaves (fun hhas => ?_) hclosing, ?_⟩
    · exact hafter.trans (by rw [hopened, List.append_assoc])
    · rw [← hopened]
      exact supplied_of_pinForGeneration hhas hpin fun hempty => hne ⟨hhas, hempty⟩
    · revert hprinted
      cases a.secretFor params₁.assertionRequest with
      | none => exact fun hprinted => ⟨hprinted.1, hprinted.2.trans hout⟩
      | some secret => exact fun hprinted => ⟨hprinted.1, by rw [hprinted.2, hout]⟩

theorem turn_of_tryDevice {r : Option AuthenticatorParameters}
    (h : tryDevice P invocation c ⟨slot, a⟩ params w = .ok r w') :
    ∃ events secret, w'.trace = w.trace ++ events ∧ Turn invocation c slot a w.trace events secret ∧
      Printed w w' r.isNone secret := by
  simp only [tryDevice, bind_eq_ok, lift_eq_ok] at h
  obtain ⟨_, w₁, hopened, info, w₂, hinfo, matched, _, ⟨hmatched, rfl⟩, h⟩ := h
  obtain ⟨hfido2, rfl⟩ := getDevice_eq_ok hopened
  obtain ⟨rfl, rfl⟩ := getDeviceInfo_eq_ok hinfo
  have hmatch := deviceAaguidMatches_eq_ok hmatched
  split at h
  · obtain ⟨rfl, rfl⟩ := EStateM.Result.ok.inj h
    have hturn : Turn invocation c slot a w.trace (.fidoDevOpen slot :: [] ++ []) none :=
      .passed (by simp) (by simp)
    exact ⟨_, none, rfl, hturn, rfl, rfl⟩
  next hsome =>
  split at h
  · simp only [bind_eq_ok, closeAndFreeDeviceIgnoringErrors_apply] at h
    obtain ⟨_, w₂, hclosed, h⟩ := h
    obtain rfl := (EStateM.Result.ok.inj hclosed).2
    obtain ⟨rfl, rfl⟩ := EStateM.Result.ok.inj h
    obtain ⟨-, hout, after, hafter, hclosing⟩ := closing_closed ⟨slot, a⟩ (w.record (.fidoDevOpen slot))
    have hturn : Turn invocation c slot a w.trace (.fidoDevOpen slot :: [] ++ after) none :=
      .passed (by simp) hclosing
    refine ⟨_, none, ?_, hturn, rfl, hout⟩
    rw [hafter, World.record_trace, List.append_assoc]
  · next hsupported =>
    have hcandidate : a.IsCandidate c :=
      ⟨hfido2, by simpa [hmatch] using hsome, by simpa using hsupported⟩
    exact turn_of_tryCandidate (w := w.record (.fidoDevOpen slot)) hcandidate rfl h

end Turns

/-! ## The search -/

/-- The events of a search from a position on, and the secret it ends with. -/
inductive Search (invocation : InvocationState) (c : DeserializedCleartext)
    (devices : List Authenticator) : ℕ → List Event → List Event → Option Bytes → Prop
  | exhausted {slot : ℕ} {past : List Event} (hend : devices[slot]? = none) :
      Search invocation c devices slot past [] none
  | found {slot : ℕ} {past events : List Event} {a : Authenticator} {secret : Bytes}
      (hdevice : devices[slot]? = some a)
      (hturn : Turn invocation c slot a past events (some secret)) :
      Search invocation c devices slot past events (some secret)
  | next {slot : ℕ} {past events rest : List Event} {a : Authenticator} {secret : Option Bytes}
      (hdevice : devices[slot]? = some a) (hturn : Turn invocation c slot a past events none)
      (hrest : Search invocation c devices (slot + 1) (past ++ events) rest secret) :
      Search invocation c devices slot past (events ++ rest) secret

theorem search_of_searchDevices {P : Platform} {invocation : InvocationState}
    {c : DeserializedCleartext} {devices remaining : List Authenticator} {slot : ℕ}
    (hremaining : devices.drop slot = remaining) {params : AuthenticatorParameters} {w w' : World}
    {found : Bool} (h : searchDevices P invocation c slot remaining params w = .ok found w') :
    ∃ events secret, w'.trace = w.trace ++ events ∧
      Search invocation c devices slot w.trace events secret ∧ Printed w w' found secret := by
  induction remaining generalizing slot params w with
  | nil =>
    obtain ⟨rfl, rfl⟩ := EStateM.Result.ok.inj h
    have hend : devices[slot]? = none := by simpa using hremaining
    exact ⟨[], none, by simp, .exhausted hend, rfl, rfl⟩
  | cons a remaining ih =>
    have hdevice : devices[slot]? = some a := by
      have hhead := congrArg List.head? hremaining
      simpa using hhead
    have hnext : devices.drop (slot + 1) = remaining := by
      have htail := congrArg List.tail hremaining
      simpa using htail
    simp only [searchDevices, bind_eq_ok] at h
    obtain ⟨r, w₁, hturned, h⟩ := h
    obtain ⟨events, secret, htrace, hturn, hprinted⟩ := turn_of_tryDevice hturned
    cases secret with
    | some secret =>
      obtain ⟨hr, hout⟩ := hprinted
      obtain rfl := Option.isNone_iff_eq_none.mp hr
      obtain ⟨rfl, rfl⟩ := EStateM.Result.ok.inj h
      exact ⟨events, some secret, htrace, .found hdevice hturn, rfl, hout⟩
    | none =>
      obtain ⟨hr, hout⟩ := hprinted
      cases r with
      | none => simp at hr
      | some params' =>
        obtain ⟨rest, secret, htrace', hsearch, hprinted'⟩ := ih hnext h
        rw [htrace] at hsearch
        refine ⟨_, secret, ?_, .next hdevice hturn hsearch, ?_⟩
        · rw [htrace', htrace, List.append_assoc]
        · cases secret with
          | none => exact ⟨hprinted'.1, hprinted'.2.trans hout⟩
          | some secret => exact ⟨hprinted'.1, by rw [hprinted'.2, hout]⟩

/-! ## What is required of a generation -/

/-- The device that was opened last. -/
def lastOpened (trace : List Event) : Option ℕ :=
  trace.foldl (fun opened e => match e with
    | .fidoDevOpen slot => some slot
    | _ => opened) none

/-- The devices that requests are made to, in the order of the requests. -/
def requestedSlots (events : List Event) : List ℕ :=
  events.filterMap fun e => match e with
    | .fidoDevGetAssert slot _ => some slot
    | _ => none

/-- The secret an event brings, as an answer with `FIDO_OK`. -/
def answerTo (devices : List Authenticator) : Event → Option Bytes
  | .fidoDevGetAssert slot request => devices[slot]?.bind fun a => a.secretFor request
  | _ => none

/-- The secret of the first device that answered with one. -/
def firstAnswer (devices : List Authenticator) (events : List Event) : Option Bytes :=
  events.findSome? (answerTo devices)

/-- Whatever follows an answer closes the device. -/
def EndsWithAnswer (devices : List Authenticator) (events : List Event) : Prop :=
  events.Pairwise fun e x => answerTo devices e ≠ none → x.IsClosing

/-- A request is for a candidate with its PIN, and a prompt for an open candidate that has one. -/
def IsGuarded (invocation : InvocationState) (c : DeserializedCleartext)
    (devices : List Authenticator) (past : List Event) : Event → Prop
  | .fidoDevGetAssert slot _ => ∃ a, devices[slot]? = some a ∧ a.IsCandidate c ∧
      (a.fidoDevHasPin = true → ∃ pin, suppliedPin invocation past = some pin ∧ pin.length ≠ 0)
  | .promptForSecret _ => ∃ slot a, lastOpened past = some slot ∧ devices[slot]? = some a ∧
      a.Matches c ∧ deviceSupportsHmacSecret a.cborInfo = true ∧ a.fidoDevHasPin = true
  | _ => True

/-- The events of a generation behind the opening of its keyfile, its output and its status. -/
structure SoundGeneration (invocation : InvocationState) (c : DeserializedCleartext)
    (devices : List Authenticator) (w : World) (events : List Event) (status : ExitStatus)
    (w' : World) : Prop where
  trace : w'.trace = w.trace ++ events
  inOrder : (requestedSlots events).Pairwise (· < ·)
  guarded : AtEach (IsGuarded invocation c devices) w.trace events
  lastAnswer : EndsWithAnswer devices events
  stdout : w'.stdout = w.stdout ++ ((firstAnswer devices events).map hexLine).getD []
  success : status = .success ↔ firstAnswer devices events ≠ none
  noDevices : status = .noDevices ↔ devices = []
  noValidAuthenticator : status = .noValidAuthenticator ↔
    firstAnswer devices events = none ∧ devices ≠ []

section Shape

variable {invocation : InvocationState} {c : DeserializedCleartext} {devices : List Authenticator}
  {slot : ℕ} {a : Authenticator} {past events : List Event} {secret : Option Bytes}

theorem Event.IsClosing.answerTo_eq {e : Event} (h : e.IsClosing) : answerTo devices e = none := by
  cases e <;> first | rfl | exact h.elim

theorem Event.IsPrompt.answerTo_eq {e : Event} (h : e.IsPrompt) : answerTo devices e = none := by
  cases e <;> first | rfl | exact h.elim

theorem requestedSlots_eq_nil (h : ∀ e ∈ events, e.IsPrompt ∨ e.IsClosing) :
    requestedSlots events = [] := by
  refine List.filterMap_eq_nil_iff.mpr fun e he => ?_
  cases e <;> first | rfl | exact (h _ he).elim False.elim False.elim

theorem requestedSlots_append (events events' : List Event) :
    requestedSlots (events ++ events') = requestedSlots events ++ requestedSlots events' :=
  List.filterMap_append

theorem lastOpened_append_prompt {e : Event} (h : e.IsPrompt) :
    lastOpened (past ++ [e]) = lastOpened past := by
  cases e <;> first | exact h.elim | simp [lastOpened]

theorem guarded_prompts {prompts : List Event} (hopened : lastOpened past = some slot)
    (hdevice : devices[slot]? = some a) (h : ∀ e ∈ prompts, e.IsPrompt ∧ a.LeavesPin c) :
    AtEach (IsGuarded invocation c devices) past prompts := by
  induction prompts generalizing past with
  | nil => trivial
  | cons e prompts ih =>
    obtain ⟨hprompt, hleaves⟩ := h e List.mem_cons_self
    refine ⟨?_, ih ?_ fun x hx => h x (List.mem_cons_of_mem e hx)⟩
    · cases e <;> first | exact hprompt.elim | exact ⟨slot, a, hopened, hdevice, hleaves⟩ | trivial
    · exact (lastOpened_append_prompt hprompt).trans hopened

theorem guarded_closing (h : ∀ e ∈ events, e.IsClosing) :
    AtEach (IsGuarded invocation c devices) past events :=
  atEach_of_forall fun e he past => by
    cases e <;> first | exact (h _ he).elim | trivial

theorem Turn.guarded (hdevice : devices[slot]? = some a)
    (h : Turn invocation c slot a past events secret) :
    AtEach (IsGuarded invocation c devices) past events := by
  have hopened : lastOpened (past ++ [.fidoDevOpen slot]) = some slot := by simp [lastOpened]
  cases h with
  | passed hprompts hafter =>
    exact ⟨trivial, atEach_append.mpr ⟨guarded_prompts hopened hdevice hprompts,
      guarded_closing hafter⟩⟩
  | @asked prompts _ _ hcandidate hprompts hsupplied hafter =>
    refine ⟨trivial, atEach_append.mpr ⟨guarded_prompts hopened hdevice hprompts, ?_,
      guarded_closing hafter⟩⟩
    rw [List.append_assoc]
    exact ⟨a, hdevice, hcandidate, hsupplied⟩

theorem Turn.requestedSlots_eq (h : Turn invocation c slot a past events secret) :
    requestedSlots events = [] ∨ requestedSlots events = [slot] := by
  cases h with
  | @passed prompts after hprompts hafter =>
    left
    change requestedSlots (prompts ++ after) = []
    rw [requestedSlots_append, requestedSlots_eq_nil fun e he => Or.inl (hprompts e he).1,
      requestedSlots_eq_nil fun e he => Or.inr (hafter e he)]
    rfl
  | @asked prompts after request _ hprompts _ hafter =>
    right
    change requestedSlots (prompts ++ ([.fidoDevGetAssert slot request] ++ after)) = [slot]
    rw [requestedSlots_append, requestedSlots_append,
      requestedSlots_eq_nil fun e he => Or.inl (hprompts e he).1,
      requestedSlots_eq_nil fun e he => Or.inr (hafter e he)]
    rfl

theorem endsWithAnswer_of_silent (h : ∀ e ∈ events, answerTo devices e = none) :
    EndsWithAnswer devices events :=
  List.pairwise_of_forall_mem_list fun e he _ _ hne => absurd (h e he) hne

theorem endsWithAnswer_append {silent : List Event} (h : ∀ e ∈ silent, answerTo devices e = none)
    (hevents : EndsWithAnswer devices events) : EndsWithAnswer devices (silent ++ events) :=
  List.pairwise_append.mpr ⟨endsWithAnswer_of_silent h, hevents,
    fun e he _ _ hne => absurd (h e he) hne⟩

theorem firstAnswer_append {silent : List Event} (h : ∀ e ∈ silent, answerTo devices e = none) :
    firstAnswer devices (silent ++ events) = firstAnswer devices events := by
  rw [firstAnswer, List.findSome?_append, List.findSome?_eq_none_iff.mpr h]
  rfl

theorem silent_opening {prompts : List Event} (h : ∀ e ∈ prompts, e.IsPrompt ∧ a.LeavesPin c) :
    ∀ e ∈ .fidoDevOpen slot :: prompts, answerTo devices e = none := by
  intro e he
  rcases List.mem_cons.mp he with rfl | he
  · rfl
  · exact (h e he).1.answerTo_eq

theorem Turn.answer (hdevice : devices[slot]? = some a)
    (h : Turn invocation c slot a past events secret) :
    firstAnswer devices events = secret ∧ EndsWithAnswer devices events := by
  cases h with
  | @passed prompts after hprompts hafter =>
    have hopening : ∀ e ∈ .fidoDevOpen slot :: prompts, answerTo devices e = none :=
      silent_opening hprompts
    have hclosing : ∀ e ∈ after, answerTo devices e = none := fun e he => (hafter e he).answerTo_eq
    constructor
    · rw [firstAnswer_append hopening]
      exact List.findSome?_eq_none_iff.mpr hclosing
    · exact endsWithAnswer_append hopening (endsWithAnswer_of_silent hclosing)
  | @asked prompts after request _ hprompts _ hafter =>
    have hopening : ∀ e ∈ .fidoDevOpen slot :: prompts, answerTo devices e = none :=
      silent_opening hprompts
    have hclosing : ∀ e ∈ after, answerTo devices e = none := fun e he => (hafter e he).answerTo_eq
    have hanswer : answerTo devices (.fidoDevGetAssert slot request) = a.secretFor request := by
      simp [answerTo, hdevice]
    constructor
    · rw [firstAnswer_append hopening, firstAnswer, List.findSome?_cons, hanswer]
      cases a.secretFor request with
      | none => exact List.findSome?_eq_none_iff.mpr hclosing
      | some secret => rfl
    · apply endsWithAnswer_append hopening
      exact List.pairwise_cons.mpr ⟨fun x hx _ => hafter x hx, endsWithAnswer_of_silent hclosing⟩

theorem Search.guarded (h : Search invocation c devices slot past events secret) :
    AtEach (IsGuarded invocation c devices) past events := by
  induction h with
  | exhausted => trivial
  | found hdevice hturn => exact hturn.guarded hdevice
  | next hdevice hturn _ ih => exact atEach_append.mpr ⟨hturn.guarded hdevice, ih⟩

/-- Each device is asked behind the ones before it in the list. -/
theorem Search.inOrder (h : Search invocation c devices slot past events secret) :
    (requestedSlots events).Pairwise (· < ·) ∧ ∀ s ∈ requestedSlots events, slot ≤ s := by
  induction h with
  | exhausted => exact ⟨List.Pairwise.nil, by simp [requestedSlots]⟩
  | found _ hturn => rcases hturn.requestedSlots_eq with h | h <;> simp [h]
  | next _ hturn _ ih =>
    obtain ⟨hpairwise, hle⟩ := ih
    rw [requestedSlots_append]
    rcases hturn.requestedSlots_eq with h | h
    · rw [h]
      exact ⟨hpairwise, fun s hs => Nat.le_of_succ_le (hle s hs)⟩
    · rw [h]
      refine ⟨List.pairwise_cons.mpr ⟨fun s hs => hle s hs, hpairwise⟩, fun s hs => ?_⟩
      rcases List.mem_cons.mp hs with rfl | hs
      · exact Nat.le_refl s
      · exact Nat.le_of_succ_le (hle s hs)

theorem Search.answer (h : Search invocation c devices slot past events secret) :
    firstAnswer devices events = secret ∧ EndsWithAnswer devices events := by
  induction h with
  | exhausted => exact ⟨rfl, List.Pairwise.nil⟩
  | found hdevice hturn => exact hturn.answer hdevice
  | next hdevice hturn _ ih =>
    have hsilent := List.findSome?_eq_none_iff.mp (hturn.answer hdevice).1
    exact ⟨(firstAnswer_append hsilent).trans ih.1, endsWithAnswer_append hsilent ih.2⟩

end Shape

/-! ## A generation -/

/-- What `main` does with a generation, given what is to happen with a status it does not expect. -/
def generateOr (unhandled : ExitStatus → Program ExitStatus) (P : Platform)
    (invocation : InvocationState) : Program ExitStatus := do
  let devicesList ← lift (listDevices P)
  match ← printSecretConsumingInvocation P invocation devicesList with
  | .noDevices => lift (errx .noDevices
      "Unable to find an appropriate authenticator to generate a secret")
  | .noValidAuthenticator => lift (errx .noValidAuthenticator
      "No connected authenticator was able to generate a valid secret")
  | .success => return .success
  | status => unhandled status

section Generation

variable {P : Platform} {invocation : InvocationState} {devices : List Authenticator} {w w' : World}
  {status : ExitStatus}

theorem soundGeneration_of_run
    (h : printSecretConsumingInvocation P invocation devices w = .ok status w') :
    ∃ c params w₁ events, openKeyfile P invocation w = .ok (c, params) w₁ ∧
      SoundGeneration invocation c devices w₁ events status w' := by
  simp only [printSecretConsumingInvocation, bind_eq_ok] at h
  obtain ⟨⟨c, params⟩, w₁, hopen, found, w₂, hsearched, h⟩ := h
  obtain ⟨events, secret, htrace, hsearch, hprinted⟩ :=
    search_of_searchDevices (List.drop_zero) hsearched
  obtain ⟨hfirst, hends⟩ := hsearch.answer
  refine ⟨c, params, w₁, events, hopen, ?_⟩
  cases secret with
  | none =>
    obtain ⟨rfl, hout⟩ := hprinted
    cases devices with
    | nil =>
      obtain ⟨rfl, rfl⟩ := EStateM.Result.ok.inj h
      exact ⟨htrace, hsearch.inOrder.1, hsearch.guarded, hends, by simp [hout, hfirst],
        by simp [hfirst], by simp, by simp⟩
    | cons a devices =>
      obtain ⟨rfl, rfl⟩ := EStateM.Result.ok.inj h
      exact ⟨htrace, hsearch.inOrder.1, hsearch.guarded, hends, by simp [hout, hfirst],
        by simp [hfirst], by simp, by simp [hfirst]⟩
  | some secret =>
    obtain ⟨rfl, hout⟩ := hprinted
    obtain ⟨rfl, rfl⟩ := EStateM.Result.ok.inj h
    have hne : devices ≠ [] := by
      rintro rfl
      cases hsearch with
      | found hdevice _ => simp at hdevice
      | next hdevice _ _ => simp at hdevice
    exact ⟨htrace, hsearch.inOrder.1, hsearch.guarded, hends, by simp [hout, hfirst],
      by simp [hfirst], by simp [hne], by simp [hfirst]⟩

/-- The switch of `main` meets no status but the three it names. -/
theorem generateOr_congr (unhandled unhandled' : ExitStatus → Program ExitStatus) (P : Platform)
    (invocation : InvocationState) :
    generateOr unhandled P invocation = generateOr unhandled' P invocation := by
  funext w
  unfold generateOr
  cases hlist : listDevices P with
  | error h => rfl
  | ok devices =>
    simp only [lift_ok, pure_bind]
    cases hrun : printSecretConsumingInvocation P invocation devices w with
    | error h w' => rw [bind_of_error hrun, bind_of_error hrun]
    | ok status w' =>
      rw [bind_of_ok hrun, bind_of_ok hrun]
      obtain ⟨c, params, w₁, events, -, hsound⟩ := soundGeneration_of_run hrun
      have hfirst : status ≠ .success → firstAnswer devices events = none := fun hne => by
        simpa using mt hsound.success.mpr hne
      by_cases hempty : devices = []
      · rw [hsound.noDevices.mpr hempty]
      · by_cases hsuccess : status = .success
        · rw [hsuccess]
        · rw [hsound.noValidAuthenticator.mpr ⟨hfirst hsuccess, hempty⟩]

/-- A generation that returns has asked candidates only, each at most once and in order, with the
PIN they need; has printed the secret of the first that answered, and nothing else; and has
returned one of the three statuses that the program handles. -/
theorem generation_sound
    (h : printSecretConsumingInvocation P invocation devices w = .ok status w') :
    (∃ c params w₁ events, openKeyfile P invocation w = .ok (c, params) w₁ ∧
      Silently Event.IsKeyWork w w₁ ∧ SoundGeneration invocation c devices w₁ events status w') ∧
    Function.Injective hexLine ∧
    ∀ name unhandled, invocation.subcommand = .generate →
      runSubcommand P name invocation = generateOr unhandled P invocation := by
  refine ⟨?_, hexLine_injective, fun name unhandled hgenerate => ?_⟩
  · obtain ⟨c, params, w₁, events, hopen, hsound⟩ := soundGeneration_of_run h
    have hkeys : Keeps (Silently Event.IsKeyWork) (openKeyfile P invocation) :=
      keeps_openKeyfile (tolerates_silently fun _ he => he) P invocation
    exact ⟨c, params, w₁, events, hopen, hkeys.of_ok hopen, hsound⟩
  · rw [runSubcommand, hgenerate]
    exact generateOr_congr _ _ P invocation

end Generation

/-- An unrelated device stands in front of the one asked for. -/
theorem exists_generationBehind {a : Authenticator}
    (ha : ∀ request, a.Unrelated referenceKeyfile request) (hf : a.fidoDevIsFido2 = true) :
    ∃ data params w₁ w',
      openKeyfile (referenceHost referenceDevice) (referenceOpening (literal "correct horse"))
        (storedWorld data) = .ok (referenceKeyfile, params) w₁ ∧
      printSecretConsumingInvocation (referenceHost referenceDevice)
        (referenceOpening (literal "correct horse")) [a, referenceDevice]
        (storedWorld data) = .ok .success w' := by
  obtain ⟨data, params, w₁, hopen, hc, hs⟩ := exists_openedReference
  have hsettled : ∀ x ∈ [a, referenceDevice],
      x.Settled referenceKeyfile params.assertionRequest [0x5e, 0xc3] := by
    intro x hx
    rcases List.mem_pair.mp hx with rfl | rfl
    · exact Or.inr (ha _)
    · exact Or.inl (holds_reference _)
  have hfirst : [a, referenceDevice].findSome?
      (Authenticator.verdict referenceKeyfile params.assertionRequest) =
        some (.secret [0x5e, 0xc3]) := by
    rw [List.findSome?_cons, (ha _).verdict_eq_none_iff.mpr hf, List.findSome?_cons,
      (holds_reference _).verdict_eq]
  have hsearch : EndsWith w₁ false true (searchDevices (referenceHost referenceDevice)
      (referenceOpening (literal "correct horse")) referenceKeyfile 0 [a, referenceDevice] params w₁)
      _ := searchDevices_endsWith hc hs (by decide) (by decide) (by decide) hsettled 0 w₁
  rw [hfirst] at hsearch
  obtain ⟨w', hsearch, -⟩ := hsearch
  exact ⟨data, params, w₁, w', hopen, printSecret_of_search_ok hopen hsearch⟩

/-- A device that belongs to another keyfile stands in front of the one asked for. -/
theorem exists_generationBehindOther : ∃ data params w₁ w',
    openKeyfile (referenceHost referenceDevice) (referenceOpening (literal "correct horse"))
      (storedWorld data) = .ok (referenceKeyfile, params) w₁ ∧
    printSecretConsumingInvocation (referenceHost referenceDevice)
      (referenceOpening (literal "correct horse")) [otherDevice, referenceDevice]
      (storedWorld data) = .ok .success w' := exists_generationBehind unrelated_other rfl

theorem generation_sound_behind_other : ∃ data w' events secret,
    printSecretConsumingInvocation (referenceHost referenceDevice)
      (referenceOpening (literal "correct horse")) [otherDevice, referenceDevice]
      (storedWorld data) = .ok .success w' ∧
    firstAnswer [otherDevice, referenceDevice] events = some secret ∧
    w'.stdout = (storedWorld data).stdout ++ hexLine secret := by
  obtain ⟨data, -, -, w', -, hrun⟩ := exists_generationBehindOther
  obtain ⟨⟨c, params, w₁, events, hopen, ⟨-, hout, -⟩, hsound⟩, -⟩ := generation_sound hrun
  obtain ⟨secret, hsecret⟩ := Option.ne_none_iff_exists'.mp (hsound.success.mp rfl)
  exact ⟨data, w', events, secret, hrun, hsecret, by rw [hsound.stdout, hsecret, hout]; rfl⟩

end Khefin
