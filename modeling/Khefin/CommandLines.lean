import Khefin.Invocation

/-! # What each option of a command line is responsible for

The obfuscation flag and the PIN come from their own options alone, and the options that
give no passphrase neither read nor change the one already given. -/

namespace Khefin
open CLibrary ExitingPrograms

theorem parseOptions_append (P : Platform) (before after : List ReportedOption)
    (state : InvocationState × Bool) :
    parseOptions P (before ++ after) state =
      parseOptions P before state >>= parseOptions P after := by
  induction before generalizing state with
  | nil => rfl
  | cons o before ih =>
    funext w
    simp only [List.cons_append, parseOptions, bind_apply, ih]
    cases parseOption P state o w <;> rfl

/-! ## One option at a time -/

/-- What an option does to the state of the loop, with the passphrase it gives or names. -/
def ReportedOption.effect (o : ReportedOption) (passphrase : CString)
    (state : InvocationState × Bool) : InvocationState × Bool :=
  match o.letter with
  | 'd' => ({ state.1 with device := some o.optarg }, state.2)
  | 'f' => ({ state.1 with file := some o.optarg }, state.2)
  | 'p' | 'r' => ({ state.1 with passphrase := some passphrase }, state.2)
  | 'n' => ({ state.1 with authenticatorPin := some (strndup o.optarg.bytes longestValidPin) },
      state.2)
  | 'm' => ({ state.1 with mixin := some o.optarg }, state.2)
  | 'k' => ({ state.1 with kdfHardness := hardnessOf o.optarg }, state.2)
  | 'o' => ({ state.1 with obfuscateDeviceInfo := true }, state.2)
  | 'h' => ({ state.1 with subcommand := .help }, state.2)
  | _ => (state.1, true)

/-- All that one option can do to the state. -/
theorem parseOption_effect (P : Platform) (state : InvocationState × Bool) (o : ReportedOption) :
    Returns (fun state' => ∃ passphrase : CString, passphrase.length ≤ longestValidPassphrase ∧
      state' = o.effect passphrase state) (parseOption P state o) := by
  have hempty : (literal "").length ≤ longestValidPassphrase := by decide
  obtain ⟨result, invalid⟩ := state
  unfold parseOption
  dsimp only
  split
  case h_3 hletter =>
    refine returns_bind_of (returns_lift fun s hs => (strndupOrExit_eq_ok.mp hs).2) fun s hs => ?_
    exact returns_pure ⟨s, hs ▸ strndup_length_le _ _, by simp only [ReportedOption.effect, hletter]⟩
  case h_4 hletter =>
    refine returns_bind fun f => ?_
    refine returns_bind_of (returns_lift fun s hs => (strndupOrExit_eq_ok.mp hs).2) fun s hs => ?_
    refine returns_pure ⟨s, hs ▸ (strndup_length_le _ _).trans ?_,
      by simp only [ReportedOption.effect, hletter]⟩
    split <;> omega
  case h_5 hletter =>
    refine returns_bind_of (returns_lift fun s hs => (strndupOrExit_eq_ok.mp hs).2) fun s hs => ?_
    exact returns_pure ⟨literal "", hempty, by simp only [ReportedOption.effect, hletter, hs]⟩
  case h_10 =>
    refine returns_pure ⟨literal "", hempty, ?_⟩
    unfold ReportedOption.effect
    split <;> first | contradiction | rfl
  -- the value as it stands
  case h_1 hletter | h_2 hletter | h_6 hletter =>
    refine returns_bind_of (returns_lift fun s hs => (strdupOrExit_eq_ok.mp hs).2) fun s hs => ?_
    exact returns_pure ⟨literal "", hempty, by simp only [ReportedOption.effect, hletter, hs]⟩
  case h_7 hletter | h_8 hletter | h_9 hletter =>
    exact returns_pure ⟨literal "", hempty, by simp only [ReportedOption.effect, hletter]⟩

/-- Behind the options only the subcommand, the hardness and the passphrase may change. -/
theorem completeInvocation_frame (P : Platform) (name : CString) (operands : List CString)
    (state : InvocationState × Bool) :
    Returns (fun result => result = { state.1 with
      subcommand := result.subcommand, kdfHardness := result.kdfHardness,
      passphrase := result.passphrase }) (completeInvocation P name operands state) := by
  have hlate : lateSubcommand state.1 operands =
      { state.1 with subcommand := (lateSubcommand state.1 operands).subcommand } := by
    unfold lateSubcommand
    split
    · split_ifs <;> rfl
    · rfl
  refine returns_bind fun _ => returns_ite (fun _ => returns_bind fun _ => returns_throw _) fun _ => ?_
  rw [hlate]
  unfold supplyDefaults
  dsimp only
  split
  · exact returns_ite (fun _ => returns_bind fun _ => returns_bind fun _ => returns_pure rfl)
      fun _ => returns_pure rfl
  · exact returns_ite (fun _ => returns_bind fun _ => returns_bind fun _ => returns_pure rfl)
      fun _ => returns_pure rfl

/-- What holds of every state the option loop can end in, and then of all that completes it, holds
of the invocation. -/
theorem returns_parseArguments {P : Platform} {argv : List CString}
    {T : InvocationState × Bool → Prop} {S : InvocationState → Prop}
    (hloop : ∀ command subcommand, subcommandOf command = some subcommand →
      Returns T (parseOptions P (P.getoptLong argv).options ({ subcommand }, false)))
    (hcomplete : ∀ name operands state, T state →
      Returns S (completeInvocation P name operands state)) :
    Returns S (parseArgumentsAndGetPassphrase P argv) := by
  match argv with
  | [] => exact returns_throw _
  | [name] => exact returns_bind fun _ => returns_throw _
  | name :: command :: rest =>
    refine returns_bind fun _ => ?_
    cases hcommand : subcommandOf command with
    | none => exact returns_bind fun _ => returns_throw _
    | some subcommand => exact returns_bind_of (hloop command subcommand hcommand) (hcomplete name _)

/-! ## The obfuscation flag -/

theorem parseOption_obfuscateDeviceInfo (P : Platform) (state : InvocationState × Bool)
    (o : ReportedOption) :
    Returns (fun state' => state'.1.obfuscateDeviceInfo =
      (state.1.obfuscateDeviceInfo || o.letter == 'o')) (parseOption P state o) := by
  intro w state' w' h
  obtain ⟨passphrase, -, rfl⟩ := parseOption_effect P state o _ _ _ h
  unfold ReportedOption.effect
  split
  case h_10 hother _ => simpa using fun h => (hother h).elim
  all_goals simp [*]

theorem parseOptions_obfuscateDeviceInfo (P : Platform) (options : List ReportedOption)
    (state : InvocationState × Bool) :
    Returns (fun state' => state'.1.obfuscateDeviceInfo =
      (state.1.obfuscateDeviceInfo || options.any (·.letter == 'o')))
      (parseOptions P options state) := by
  induction options generalizing state with
  | nil => exact returns_pure (by simp)
  | cons o options ih =>
    refine returns_bind_of (parseOption_obfuscateDeviceInfo P state o) fun state₁ hfirst => ?_
    have hrest := ih state₁
    rwa [hfirst, Bool.or_assoc] at hrest

/-- The flag is set exactly when the option is among those reported. -/
theorem parseArguments_obfuscateDeviceInfo (P : Platform) (argv : List CString) :
    Returns (fun invocation => invocation.obfuscateDeviceInfo =
      (P.getoptLong argv).options.any (·.letter == 'o')) (parseArgumentsAndGetPassphrase P argv) := by
  have hloop := fun subcommand : Subcommand =>
    parseOptions_obfuscateDeviceInfo P (P.getoptLong argv).options ({ subcommand }, false)
  simp only [Bool.false_or] at hloop
  refine returns_parseArguments (fun _ subcommand _ => hloop subcommand) ?_
  intro name operands state hstate w result w' h
  rw [completeInvocation_frame P name operands state _ _ _ h]
  exact hstate

/-! ## The PIN -/

/-- The PIN of the last option that gives one, and otherwise the one there was before. -/
def optionPin (pin : Option CString) (options : List ReportedOption) : Option CString :=
  options.foldl (fun pin o =>
    if o.letter = 'n' then some (strndup o.optarg.bytes longestValidPin) else pin) pin

theorem parseOption_authenticatorPin (P : Platform) (state : InvocationState × Bool)
    (o : ReportedOption) :
    Returns (fun state' => state'.1.authenticatorPin = optionPin state.1.authenticatorPin [o])
      (parseOption P state o) := by
  intro w state' w' h
  obtain ⟨passphrase, -, rfl⟩ := parseOption_effect P state o _ _ _ h
  unfold ReportedOption.effect
  split
  case h_10 hother _ _ _ _ => simpa [optionPin] using fun h => (hother h).elim
  all_goals simp [optionPin, *]

theorem parseOptions_authenticatorPin (P : Platform) (options : List ReportedOption)
    (state : InvocationState × Bool) :
    Returns (fun state' => state'.1.authenticatorPin =
      optionPin state.1.authenticatorPin options) (parseOptions P options state) := by
  induction options generalizing state with
  | nil => exact returns_pure rfl
  | cons o options ih =>
    refine returns_bind_of (parseOption_authenticatorPin P state o) fun state₁ hfirst => ?_
    have hrest := ih state₁
    rwa [hfirst] at hrest

theorem parseArguments_authenticatorPin (P : Platform) (argv : List CString) :
    Returns (fun invocation => invocation.authenticatorPin =
      optionPin none (P.getoptLong argv).options) (parseArgumentsAndGetPassphrase P argv) := by
  have hloop (subcommand : Subcommand) : Returns (fun state => state.1.authenticatorPin =
      optionPin none (P.getoptLong argv).options) (parseOptions P _ ({ subcommand }, false)) :=
    parseOptions_authenticatorPin P _ ({ subcommand }, false)
  refine returns_parseArguments (fun _ subcommand _ => hloop subcommand) ?_
  intro name operands state hstate w result w' h
  rw [completeInvocation_frame P name operands state _ _ _ h]
  exact hstate

/-! ## The passphrase -/

/-- The option gives no passphrase. -/
def ReportedOption.GivesNoPassphrase (o : ReportedOption) : Prop := o.letter ≠ 'p' ∧ o.letter ≠ 'r'

def withPassphrase (passphrase : CString) (state : InvocationState × Bool) :
    InvocationState × Bool := ({ state.1 with passphrase := some passphrase }, state.2)

theorem parseOption_withPassphrase (P : Platform) (passphrase : CString)
    (state : InvocationState × Bool) {o : ReportedOption} (h : o.GivesNoPassphrase) :
    parseOption P (withPassphrase passphrase state) o =
      withPassphrase passphrase <$> parseOption P state o := by
  obtain ⟨hp, hr⟩ := h
  obtain ⟨result, invalid⟩ := state
  unfold parseOption withPassphrase
  dsimp only
  split
  case h_3 hletter => exact absurd hletter hp
  case h_4 hletter => exact absurd hletter hr
  case h_7 => rfl
  case h_8 => rfl
  case h_9 => rfl
  case h_10 => rfl
  all_goals rw [map_bind]; rfl

theorem parseOptions_withPassphrase (P : Platform) (passphrase : CString)
    (state : InvocationState × Bool) {options : List ReportedOption}
    (h : ∀ o ∈ options, o.GivesNoPassphrase) :
    parseOptions P options (withPassphrase passphrase state) =
      withPassphrase passphrase <$> parseOptions P options state := by
  induction options generalizing state with
  | nil => rfl
  | cons o options ih =>
    have hrest := fun state => ih state fun x hx => h x (List.mem_cons_of_mem o hx)
    simp only [parseOptions, parseOption_withPassphrase P passphrase state (h o List.mem_cons_self),
      bind_map_left, hrest, map_bind]

/-- Only a passphrase file is read. -/
theorem keeps_eq_parseOption (P : Platform) (state : InvocationState × Bool) {o : ReportedOption}
    (h : o.GivesNoPassphrase) : Keeps Eq (parseOption P state o) := by
  unfold parseOption
  dsimp only
  split
  case h_3 hletter => exact absurd hletter h.1
  case h_4 hletter => exact absurd hletter h.2
  case h_7 => exact keeps_pure _
  case h_8 => exact keeps_pure _
  case h_9 => exact keeps_pure _
  case h_10 => exact keeps_pure _
  all_goals exact keeps_bind (keeps_lift _) fun _ => keeps_pure _

theorem keeps_eq_parseOptions (P : Platform) (state : InvocationState × Bool)
    {options : List ReportedOption} (h : ∀ o ∈ options, o.GivesNoPassphrase) :
    Keeps Eq (parseOptions P options state) := by
  induction options generalizing state with
  | nil => exact keeps_pure _
  | cons o options ih =>
    refine keeps_bind (keeps_eq_parseOption P state (h o List.mem_cons_self)) fun state => ?_
    exact ih state fun x hx => h x (List.mem_cons_of_mem o hx)

theorem parseOption_passphrase (P : Platform) (state : InvocationState × Bool) {o : ReportedOption}
    (h : o.GivesNoPassphrase) :
    Returns (fun state' => state'.1.passphrase = state.1.passphrase) (parseOption P state o) := by
  intro w state' w' hrun
  obtain ⟨passphrase, -, rfl⟩ := parseOption_effect P state o _ _ _ hrun
  unfold ReportedOption.effect
  split
  case h_3 hletter => exact absurd hletter h.1
  case h_4 hletter => exact absurd hletter h.2
  all_goals rfl

theorem parseOptions_passphrase (P : Platform) (state : InvocationState × Bool)
    {options : List ReportedOption} (h : ∀ o ∈ options, o.GivesNoPassphrase) :
    Returns (fun state' => state'.1.passphrase = state.1.passphrase)
      (parseOptions P options state) := by
  induction options generalizing state with
  | nil => exact returns_pure rfl
  | cons o options ih =>
    refine returns_bind_of (parseOption_passphrase P state (h o List.mem_cons_self)) ?_
    intro state₁ hfirst
    rw [← hfirst]
    exact ih state₁ fun x hx => h x (List.mem_cons_of_mem o hx)

/-- An option that gives a passphrase may stand anywhere among the others. -/
theorem parseOptions_insert {P : Platform} {state state' : InvocationState × Bool} {w : World}
    {before after : List ReportedOption} {o : ReportedOption} {passphrase : CString}
    (h : ∀ x ∈ before ++ after, x.GivesNoPassphrase)
    (hrun : parseOptions P (before ++ after) state w = .ok state' w)
    (ho : ∀ state, parseOption P state o w = .ok (withPassphrase passphrase state) w) :
    parseOptions P (before ++ o :: after) state w = .ok (withPassphrase passphrase state') w := by
  rw [parseOptions_append] at hrun ⊢
  obtain ⟨state₁, w₁, hbefore, hafter⟩ := bind_eq_ok.mp hrun
  obtain rfl : w = w₁ := (keeps_eq_parseOptions P state fun x hx =>
    h x (List.mem_append_left after hx)).of_ok hbefore
  rw [bind_of_ok hbefore, parseOptions, bind_of_ok (ho state₁),
    parseOptions_withPassphrase P passphrase state₁ fun x hx => h x (List.mem_append_right before hx),
    map_apply, hafter]

theorem parseOptions_stop {P : Platform} {state state' : InvocationState × Bool} {w : World}
    {before after : List ReportedOption} {o : ReportedOption} {e : Halt}
    (h : ∀ x ∈ before ++ after, x.GivesNoPassphrase)
    (hrun : parseOptions P (before ++ after) state w = .ok state' w)
    (ho : ∀ state, parseOption P state o w = .error e w) :
    parseOptions P (before ++ o :: after) state w = .error e w := by
  rw [parseOptions_append] at hrun ⊢
  obtain ⟨state₁, w₁, hbefore, -⟩ := bind_eq_ok.mp hrun
  obtain rfl : w = w₁ := (keeps_eq_parseOptions P state fun x hx =>
    h x (List.mem_append_left after hx)).of_ok hbefore
  rw [bind_of_ok hbefore, parseOptions, bind_of_error (ho state₁)]

/-! ## An accepted command line -/

/-- The argument vector names the subcommand and is reported as these options and operands. -/
structure SplitsInto (P : Platform) (argv : List CString) (subcommand : Subcommand)
    (options : List ReportedOption) (operands : List CString) : Prop where
  named : ∃ name command rest, argv = name :: command :: rest ∧
    subcommandOf command = some subcommand
  reported : P.getoptLong argv = ⟨options, operands⟩

/-- Options without a passphrase that make, with their operands, a valid enrolment or
generation. -/
structure ValidOptions (P : Platform) (w : World) (subcommand : Subcommand)
    (options : List ReportedOption) (operands : List CString) (result : InvocationState) : Prop where
  noPassphrase : ∀ o ∈ options, o.GivesNoPassphrase
  parsed : parseOptions P options ({ subcommand }, false) w = .ok (result, false) w
  subcommand : result.subcommand = .enrol ∨ result.subcommand = .generate
  operands : extraArguments result operands = []
  required : breaksRequirements result = false

theorem ValidOptions.passphrase_eq_none {P : Platform} {w : World} {subcommand : Subcommand}
    {options : List ReportedOption} {operands : List CString} {result : InvocationState}
    (h : ValidOptions P w subcommand options operands result) : result.passphrase = none :=
  parseOptions_passphrase P _ h.noPassphrase _ _ _ h.parsed

section Parsing

variable {P : Platform} {w : World} {argv : List CString} {subcommand : Subcommand}
  {options : List ReportedOption} {operands : List CString}
  (hm : P.malloc sizeofInvocationState = true) (h : SplitsInto P argv subcommand options operands)
include hm h

theorem parseArguments_of_splits : ∃ name, parseArgumentsAndGetPassphrase P argv w =
    (parseOptions P options ({ subcommand }, false) >>= completeInvocation P name operands) w := by
  obtain ⟨⟨name, command, rest, rfl, hcommand⟩, hreported⟩ := h
  refine ⟨name, ?_⟩
  rw [parseArgumentsAndGetPassphrase, bind_of_ok (lift_eq_ok.mpr ⟨mallocOrExit_of hm _, rfl⟩),
    hcommand]
  simp only [hreported]

theorem parseArguments_of_stop {e : Halt}
    (hstop : parseOptions P options ({ subcommand }, false) w = .error e w) :
    parseArgumentsAndGetPassphrase P argv w = .error e w := by
  obtain ⟨name, hrun⟩ := parseArguments_of_splits hm h (w := w)
  rw [hrun, bind_of_error hstop]

/-- Once the options are read, what is left is to supply the defaults. -/
theorem parseArguments_of_parsed {result : InvocationState}
    (hparsed : parseOptions P options ({ subcommand }, false) w = .ok (result, false) w)
    (hsub : result.subcommand = .enrol ∨ result.subcommand = .generate)
    (hoperands : extraArguments result operands = [])
    (hrequired : breaksRequirements result = false) :
    parseArgumentsAndGetPassphrase P argv w = supplyDefaults P result w := by
  obtain ⟨name, hrun⟩ := parseArguments_of_splits hm h (w := w)
  have hlate : lateSubcommand result operands = result := by
    unfold lateSubcommand
    rcases hsub with hsub | hsub <;> simp [hsub]
  rw [hrun, bind_of_ok hparsed]
  simp [completeInvocation, hlate, hoperands, hrequired, reportExtraArguments]

end Parsing

end Khefin
