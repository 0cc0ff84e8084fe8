import Khefin.CommandLines
import Khefin.KeyfileStorage

/-! # What leaves the parser is fit for its command

The options are read in a loop that may override or undo what earlier ones set, so
only bounds survive it; what a command needs is checked behind the loop, on the
state it ends with. -/

namespace Khefin
open CLibrary ExitingPrograms

/-- An invocation that can be handed to the code of its command. -/
structure InvocationState.IsFit (i : InvocationState) : Prop where
  known : i.subcommand ∈ [.help, .version, .enumerate, .enrol, .generate]
  enrol : i.subcommand = .enrol → i.device ≠ none ∧ i.file ≠ none ∧ i.passphrase ≠ none ∧
    i.mixin = none ∧ i.kdfHardness ∈ [.low, .medium, .high]
  generate : i.subcommand = .generate → i.file ≠ none ∧ i.passphrase ≠ none ∧ i.device = none ∧
    i.obfuscateDeviceInfo = false ∧ i.kdfHardness = .unspecified
  passphrase : ∀ p, i.passphrase = some p → p.length ≤ longestValidPassphrase
  pin : ∀ p, i.authenticatorPin = some p → p.length ≤ longestValidPin

/-! ## Lengths -/

/-- A secret that was read is shorter than its buffer. -/
theorem secret_length_le {maximumSize : ℕ} {stream line rest : Bytes}
    (h : fgets maximumSize stream = some (line, rest)) :
    (stripNewline (cString line)).length ≤ maximumSize - 1 :=
  (stripNewline_length_le _).trans ((cString_length_le line).trans (fgets_length_le h))

theorem getLine_length (description : CString) (maximumSize : ℕ) :
    Returns (fun line => (stripNewline (cString line)).length ≤ maximumSize - 1)
      (getLine description maximumSize) := by
  refine returns_bind fun w => ?_
  cases hline : fgets maximumSize w.stdin with
  | none => exact returns_throw _
  | some r => exact returns_bind fun _ => returns_pure (secret_length_le hline)

theorem promptForSecret_length (P : Platform) (description : CString) (maximumSize : ℕ) :
    Returns (fun secret => secret.length ≤ maximumSize - 1)
      (promptForSecret P description maximumSize) := by
  have hread : ∀ line : Bytes, (stripNewline (cString line)).length ≤ maximumSize - 1 →
      Returns (fun secret => secret.length ≤ maximumSize - 1) (readSecret line) :=
    fun line hline => returns_bind fun _ => returns_pure hline
  refine returns_bind fun _ => ?_
  cases P.standardInput with
  | terminal tcgetattr tcsetattr tcsetattrBack =>
    refine returns_bind fun _ => returns_bind fun _ => ?_
    refine returns_bind_of (getLine_length description maximumSize) fun line hline => ?_
    exact returns_bind fun _ => hread line hline
  | notTerminal =>
    refine returns_bind_of (getLine_length description maximumSize) fun line hline => ?_
    exact returns_bind fun _ => hread line hline
  | unusable => exact returns_throw _

/-! ## The option loop -/

/-- What every turn of the loop keeps. -/
structure InvocationState.Bounded (i : InvocationState) : Prop where
  known : i.subcommand ≠ .unknown
  passphrase : ∀ p, i.passphrase = some p → p.length ≤ longestValidPassphrase
  pin : ∀ p, i.authenticatorPin = some p → p.length ≤ longestValidPin

/-- A passphrase read or given is cut to the longest one. -/
theorem InvocationState.Bounded.withPassphrase {i : InvocationState} (h : i.Bounded) {s : CString}
    (hs : s.length ≤ longestValidPassphrase) : ({ i with passphrase := some s }).Bounded :=
  ⟨h.known, fun _ hp => Option.some.inj hp ▸ hs, h.pin⟩

theorem bounded_parseOption (P : Platform) (o : ReportedOption) {state : InvocationState × Bool}
    (h : state.1.Bounded) :
    Returns (fun state' => state'.1.Bounded) (parseOption P state o) := by
  intro w state' w' hrun
  obtain ⟨passphrase, hp, rfl⟩ := parseOption_effect P state o _ _ _ hrun
  unfold ReportedOption.effect
  split
  case h_3 => exact h.withPassphrase hp
  case h_4 => exact h.withPassphrase hp
  case h_5 => exact ⟨h.known, h.passphrase, fun _ hpin => Option.some.inj hpin ▸ strndup_length_le _ _⟩
  case h_9 => exact ⟨by simp, h.passphrase, h.pin⟩
  case h_10 => exact h
  all_goals exact ⟨h.known, h.passphrase, h.pin⟩

theorem bounded_parseOptions (P : Platform) (options : List ReportedOption)
    {state : InvocationState × Bool} (h : state.1.Bounded) :
    Returns (fun state' => state'.1.Bounded) (parseOptions P options state) := by
  induction options generalizing state with
  | nil => exact returns_pure h
  | cons o options ih =>
    exact returns_bind_of (bounded_parseOption P o h) fun state hstate => ih hstate

theorem bounded_initial {command : CString} {subcommand : Subcommand}
    (h : subcommandOf command = some subcommand) : ({ subcommand } : InvocationState).Bounded := by
  refine ⟨?_, by simp, by simp⟩
  rintro rfl
  unfold subcommandOf at h
  split_ifs at h <;> simp at h

/-! ## Behind the loop -/

theorem lateSubcommand_of_known {i : InvocationState} (h : i.subcommand ≠ .unknown)
    (operands : List CString) : lateSubcommand i operands = i := by
  unfold lateSubcommand
  split
  · exact absurd ‹_› h
  · rfl

theorem automaticHardness_mem (P : Platform) : automaticHardness P ∈ [.low, .medium, .high] := by
  unfold automaticHardness
  split_ifs <;> simp

theorem mem_known {s : Subcommand} (h : s ≠ .unknown) :
    s ∈ [.help, .version, .enumerate, .enrol, .generate] := by
  cases s with
  | unknown => exact absurd rfl h
  | _ => simp

/-- The invocation with the hardness of a new keyfile settled. -/
def settleHardness (P : Platform) (i : InvocationState) : InvocationState :=
  if i.subcommand = .enrol ∧ i.kdfHardness = .unspecified then
    { i with kdfHardness := automaticHardness P }
  else i

def InvocationState.NeedsPassphrase (i : InvocationState) : Prop :=
  (i.subcommand = .enrol ∨ i.subcommand = .generate) ∧ i.passphrase = none

/-- All that supplying the defaults can return. -/
theorem returns_supplyDefaults {P : Platform} {i : InvocationState} {S : InvocationState → Prop}
    (hprompted : (settleHardness P i).NeedsPassphrase → ∀ secret : CString,
      secret.length ≤ longestValidPassphrase →
      S { settleHardness P i with passphrase := some secret })
    (hgiven : ¬(settleHardness P i).NeedsPassphrase → S (settleHardness P i)) :
    Returns S (supplyDefaults P i) := by
  refine returns_ite (fun hneeds => ?_) fun hneeds => returns_pure (hgiven hneeds)
  refine returns_bind fun _ => ?_
  refine returns_bind_of (promptForSecret_length P _ _) fun secret hsecret => ?_
  exact returns_pure (hprompted hneeds secret (hsecret.trans (Nat.sub_le _ _)))

theorem bounded_settleHardness (P : Platform) {i : InvocationState} (h : i.Bounded) :
    (settleHardness P i).Bounded := by
  unfold settleHardness
  split
  · exact ⟨h.known, h.passphrase, h.pin⟩
  · exact h

theorem settleHardness_mem (P : Platform) {i : InvocationState} (hsub : i.subcommand = .enrol)
    (h : i.kdfHardness ≠ .invalid) : (settleHardness P i).kdfHardness ∈ [.low, .medium, .high] := by
  unfold settleHardness
  split
  · exact automaticHardness_mem P
  · next hset =>
    cases hk : i.kdfHardness with
    | invalid => exact absurd hk h
    | unspecified => exact absurd ⟨hsub, hk⟩ hset
    | _ => simp

theorem settleHardness_of_ne (P : Platform) {i : InvocationState} (hsub : i.subcommand ≠ .enrol) :
    settleHardness P i = i := if_neg fun h => hsub h.1

theorem settleHardness_eq (P : Platform) (i : InvocationState) :
    settleHardness P i = { i with kdfHardness := (settleHardness P i).kdfHardness } := by
  unfold settleHardness
  split <;> rfl

/-- The requirements of an enrolment, once the hardness is settled. -/
theorem isFit_of_enrol {i : InvocationState} (h : i.Bounded) (hsub : i.subcommand = .enrol)
    (hrequired : i.device ≠ none ∧ i.file ≠ none ∧ i.mixin = none)
    (hhardness : i.kdfHardness ∈ [.low, .medium, .high]) (hpassphrase : i.passphrase ≠ none) :
    i.IsFit where
  known := mem_known h.known
  enrol _ := ⟨hrequired.1, hrequired.2.1, hpassphrase, hrequired.2.2, hhardness⟩
  generate hgenerate := by simp [hsub] at hgenerate
  passphrase := h.passphrase
  pin := h.pin

theorem isFit_of_generate {i : InvocationState} (h : i.Bounded) (hsub : i.subcommand = .generate)
    (hrequired : i.device = none ∧ i.file ≠ none ∧ i.obfuscateDeviceInfo = false ∧
      i.kdfHardness = .unspecified) (hpassphrase : i.passphrase ≠ none) : i.IsFit where
  known := mem_known h.known
  enrol henrol := by simp [hsub] at henrol
  generate _ := ⟨hrequired.2.1, hpassphrase, hrequired.1, hrequired.2.2⟩
  passphrase := h.passphrase
  pin := h.pin

/-- The other commands need nothing. -/
theorem isFit_of_other {i : InvocationState} (h : i.Bounded) (henrol : i.subcommand ≠ .enrol)
    (hgenerate : i.subcommand ≠ .generate) : i.IsFit where
  known := mem_known h.known
  enrol hsub := absurd hsub henrol
  generate hsub := absurd hsub hgenerate
  passphrase := h.passphrase
  pin := h.pin

/-- The requirements of a command and the defaults make the invocation fit. -/
theorem isFit_supplyDefaults (P : Platform) {i : InvocationState} (h : i.Bounded)
    (hr : i.subcommand = .help ∨ breaksRequirements i = false) :
    Returns InvocationState.IsFit (supplyDefaults P i) := by
  have hsettled := bounded_settleHardness P h
  have heq := settleHardness_eq P i
  cases hsub : i.subcommand with
  | enrol =>
    simp only [hsub, reduceCtorEq, false_or, breaksRequirements, Bool.or_eq_false_iff,
      Option.isNone_eq_false_iff, Option.isSome_eq_false_iff, Option.isNone_iff_eq_none,
      Option.isSome_iff_ne_none, beq_eq_false_iff_ne] at hr
    obtain ⟨⟨⟨hdevice, hfile⟩, hmixin⟩, hhardness⟩ := hr
    have hmem := settleHardness_mem P hsub hhardness
    have hs : (settleHardness P i).subcommand = .enrol := by rw [heq]; exact hsub
    have hfields : (settleHardness P i).device ≠ none ∧ (settleHardness P i).file ≠ none ∧
        (settleHardness P i).mixin = none := by
      rw [heq]
      exact ⟨hdevice, hfile, hmixin⟩
    refine returns_supplyDefaults (fun _ secret hsecret => ?_) fun hgiven => ?_
    · exact isFit_of_enrol (hsettled.withPassphrase hsecret) hs hfields hmem (Option.some_ne_none _)
    · exact isFit_of_enrol hsettled hs hfields hmem fun hnone => hgiven ⟨Or.inl hs, hnone⟩
  | generate =>
    have hne : i.subcommand ≠ .enrol := by simp [hsub]
    simp only [hsub, reduceCtorEq, false_or, breaksRequirements, Bool.or_eq_false_iff,
      Option.isNone_eq_false_iff, Option.isSome_eq_false_iff, Option.isNone_iff_eq_none,
      Option.isSome_iff_ne_none, bne_eq_false_iff_eq] at hr
    obtain ⟨⟨⟨hdevice, hfile⟩, hobfuscate⟩, hhardness⟩ := hr
    have hfields : i.device = none ∧ i.file ≠ none ∧ i.obfuscateDeviceInfo = false ∧
        i.kdfHardness = .unspecified := ⟨hdevice, hfile, hobfuscate, hhardness⟩
    refine returns_supplyDefaults (fun _ secret hsecret => ?_) fun hgiven => ?_
    · rw [settleHardness_of_ne P hne]
      exact isFit_of_generate (h.withPassphrase hsecret) hsub hfields (Option.some_ne_none _)
    · rw [settleHardness_of_ne P hne] at hgiven ⊢
      exact isFit_of_generate h hsub hfields fun hnone => hgiven ⟨Or.inr hsub, hnone⟩
  | _ =>
    have hne : i.subcommand ≠ .enrol := by simp [hsub]
    have hne' : i.subcommand ≠ .generate := by simp [hsub]
    refine returns_supplyDefaults (fun hneeds _ _ => ?_) fun _ => ?_
    · rw [settleHardness_of_ne P hne] at hneeds
      exact absurd hneeds.1 (by simp [hsub])
    · rw [settleHardness_of_ne P hne]
      exact isFit_of_other h hne hne'

theorem isFit_completeInvocation (P : Platform) (name : CString) (operands : List CString)
    {state : InvocationState × Bool} (h : state.1.Bounded) :
    Returns InvocationState.IsFit (completeInvocation P name operands state) := by
  refine returns_bind fun _ => returns_ite (fun _ => ?_) fun hvalid => ?_
  · exact returns_bind fun _ => returns_throw _
  · rw [lateSubcommand_of_known h.known] at hvalid ⊢
    refine isFit_supplyDefaults P h ?_
    by_cases hhelp : state.1.subcommand = .help
    · exact Or.inl hhelp
    · refine Or.inr (Bool.eq_false_iff.mpr fun hbreaks => hvalid ⟨hhelp, ?_⟩)
      simp [hbreaks]

theorem isFit_parseArguments (P : Platform) (argv : List CString) :
    Returns InvocationState.IsFit (parseArgumentsAndGetPassphrase P argv) := by
  refine returns_parseArguments (T := fun state => state.1.Bounded) ?_ ?_
  · exact fun command subcommand hcommand => bounded_parseOptions P _ (bounded_initial hcommand)
  · exact fun name operands state hstate => isFit_completeInvocation P name operands hstate

/-! ## What the commands rely on -/

def Halt.IsOutOfMemory : Halt → Prop
  | .exit status _ => status = .outOfMemory
  | .fault _ => False

/-- The code behind the parser uses options without looking whether they were given, takes the
hardness for one of three, and has a branch for each command. -/
structure InvocationState.IsServed (P : Platform) (i : InvocationState) : Prop where
  switched : ∀ name other,
    (if i.subcommand = .unknown then other else runSubcommand P name i) = runSubcommand P name i
  device : i.subcommand = .enrol →
    ∀ operation, ∃ path, dereference operation i.device = .ok path
  file : i.subcommand = .enrol ∨ i.subcommand = .generate →
    ∀ operation, ∃ path, dereference operation i.file = .ok path
  passphrase : i.subcommand = .enrol ∨ i.subcommand = .generate →
    ∀ operation, ∃ p, dereference operation i.passphrase = .ok p
  hardness : i.subcommand = .enrol → ∃ limits, hardnessLimits i.kdfHardness = .ok limits
  newKeySpec : i.subcommand = .enrol → FailsIn Halt.IsOutOfMemory (makeNewKeySpecFromInvocation P i)
  keySpec : i.subcommand = .generate → ∀ cleartext, FailsIn Halt.IsOutOfMemory
    (makeKeySpecFromPassphraseAndCleartext P i.passphrase cleartext)

theorem lacksMemory_mallocOrExit (P : Platform) (n : ℕ) (what : String) :
    FailsIn Halt.IsOutOfMemory (mallocOrExit P n what) := failsIn_stopIf fun _ => rfl

theorem lacksMemory_strdupOrExit (P : Platform) (s : CString) (what : String) :
    FailsIn Halt.IsOutOfMemory (strdupOrExit P s what) :=
  failsIn_bind (lacksMemory_mallocOrExit P _ _) fun _ _ => failsIn_ok _

theorem dereference_of_ne {α : Type} {p : Option α} (h : p ≠ none) (operation : String) :
    ∃ a, dereference operation p = .ok a := by
  cases p with
  | none => exact absurd rfl h
  | some a => exact ⟨a, rfl⟩

theorem hardnessLimits_of_mem {k : KdfHardness} (h : k ∈ [.low, .medium, .high]) :
    ∃ limits, hardnessLimits k = .ok limits := by
  cases k with
  | invalid => simp at h
  | unspecified => simp at h
  | _ => exact ⟨_, rfl⟩

theorem failsIn_of_ok {α : Type} {S : Halt → Prop} {x : Except Halt α} (h : ∃ a, x = .ok a) :
    FailsIn S x := by
  obtain ⟨a, rfl⟩ := h
  exact failsIn_ok a

theorem InvocationState.IsFit.isServed {i : InvocationState} (h : i.IsFit) (P : Platform) :
    i.IsServed P := by
  have hpassphrase : i.subcommand = .enrol ∨ i.subcommand = .generate →
      ∀ operation, ∃ p, dereference operation i.passphrase = .ok p := by
    rintro (hsub | hsub) operation
    · exact dereference_of_ne (h.enrol hsub).2.2.1 operation
    · exact dereference_of_ne (h.generate hsub).2.1 operation
  have hhardness : i.subcommand = .enrol → ∃ limits, hardnessLimits i.kdfHardness = .ok limits :=
    fun hsub => hardnessLimits_of_mem (h.enrol hsub).2.2.2.2
  refine ⟨fun name other => if_neg fun hunknown => ?_, fun hsub => ?_, ?_, hpassphrase, hhardness,
    fun hsub => ?_, fun hsub cleartext => ?_⟩
  · have hknown := h.known
    simp [hunknown] at hknown
  · exact dereference_of_ne (h.enrol hsub).1
  · rintro (hsub | hsub) operation
    · exact dereference_of_ne (h.enrol hsub).2.1 operation
    · exact dereference_of_ne (h.generate hsub).1 operation
  · refine failsIn_bind (lacksMemory_mallocOrExit P _ _) fun _ _ => ?_
    refine failsIn_bind (failsIn_of_ok (hpassphrase (Or.inl hsub) _)) fun _ _ => ?_
    refine failsIn_bind (lacksMemory_strdupOrExit P _ _) fun _ _ => ?_
    refine failsIn_bind (failsIn_of_ok (hhardness hsub)) fun _ _ => ?_
    exact failsIn_bind (lacksMemory_mallocOrExit P _ _) fun _ _ => failsIn_ok _
  · refine failsIn_bind (lacksMemory_mallocOrExit P _ _) fun _ _ => ?_
    refine failsIn_bind (failsIn_of_ok (hpassphrase (Or.inr hsub) _)) fun _ _ => ?_
    refine failsIn_bind (lacksMemory_strdupOrExit P _ _) fun _ _ => ?_
    exact failsIn_bind (lacksMemory_mallocOrExit P _ _) fun _ _ => failsIn_ok _

/-- Every invocation that leaves the parser has what its command requires, within the limits on
its lengths, and nothing that its command does not know; so none of the code that takes this
for granted fails over it. -/
theorem parsed_invocation_is_fit {P : Platform} {argv : List CString} {w w' : World}
    {invocation : InvocationState}
    (h : parseArgumentsAndGetPassphrase P argv w = .ok invocation w') :
    invocation.IsFit ∧ invocation.IsServed P := by
  have hfit := isFit_parseArguments P argv w invocation w' h
  exact ⟨hfit, hfit.isServed P⟩

theorem parsed_invocation_is_fit_enrol :
    referenceInvocation.IsFit ∧
      referenceInvocation.IsServed (enrolHost ⟨true, true, 4096, 0, 4096⟩) :=
  parsed_invocation_is_fit (parse_enrolArguments _ emptyWorld)

end Khefin
