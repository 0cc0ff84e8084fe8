import Khefin.DocumentedCommandLines
import Khefin.FitInvocations
import Khefin.PassphraseChannels

/-! # Which command lines are accepted

The loop gathers what the options give, and the checks behind it are a formula over what has
been gathered. The manual is a formula over what was given; the two are compared by subcommand. -/

namespace Khefin
open CLibrary ExitingPrograms

/-! ## The manual -/

/-- The values given for an option, in order. -/
def valuesOf (option : ValueOption) (given : List Given) : List CString :=
  given.filterMap fun g => match g with
    | .value o v => if o = option then some v else none
    | .flag _ _ => none

def Subcommand.requiredOptions : Subcommand → List ValueOption
  | .enrol => [.device, .file]
  | .generate => [.file]
  | _ => []

def Subcommand.allowedOptions : Subcommand → List ValueOption
  | .enrol => [.device, .file, .passphrase, .passphraseFile, .pin, .kdfHardness]
  | .generate => [.file, .passphrase, .passphraseFile, .pin, .mixin]
  | _ => []

def Subcommand.allowedFlags : Subcommand → List Flag
  | .enrol => [.obfuscateDeviceInfo]
  | _ => []

/-- The letters l, m and h in either case. -/
def hardnessLetters : Bytes := [0x6c, 0x4c, 0x6d, 0x4d, 0x68, 0x48]

def IsHardness (v : CString) : Prop := ∃ x ∈ hardnessLetters, v.bytes.head? = some x

namespace CommandLine

structure FollowsManual (line : CommandLine) : Prop where
  strays : line.strays = []
  required : ∀ option ∈ line.subcommand.requiredOptions, valuesOf option line.given ≠ []
  options : ∀ option v, .value option v ∈ line.given → option ∈ line.subcommand.allowedOptions
  flags : ∀ flag long, .flag flag long ∈ line.given → flag ∈ line.subcommand.allowedFlags
  hardness : ∀ v, (valuesOf .kdfHardness line.given).getLast? = some v → IsHardness v

def RequestsHelp (line : CommandLine) : Prop :=
  line.subcommand = .help ∨ ∃ long, .flag .help long ∈ line.given

def IsDocumented (line : CommandLine) : Prop := line.RequestsHelp ∨ line.FollowsManual

/-- The run does not end with the usage and `EXIT_BAD_INVOCATION`. -/
def IsAccepted (P : Platform) (w : World) (line : CommandLine) : Prop :=
  ∀ m w', parseArgumentsAndGetPassphrase P line.argv w ≠ .error (.exit .badInvocation m) w'

/-- Options are scanned with the tables of the program, memory is not short, and the passphrase
files named can be read and are not empty. -/
structure Circumstances (P : Platform) (w : World) (line : CommandLine) : Prop where
  scanner : P.getoptLong line.argv = getoptLong line.argv
  memory : P.Allocates ptrdiffMax
  sizes : ∀ option v, .value option v ∈ line.given → v.length < ptrdiffMax
  reading : P.reading = .faithful
  files : ∀ path ∈ valuesOf .passphraseFile line.given, ∃ data, w.files path = some data ∧ data ≠ []

/-- A passphrase file is longer than any file that is read. -/
def NamesOversizedFile (w : World) (line : CommandLine) : Prop :=
  ∃ path ∈ valuesOf .passphraseFile line.given, ∃ data, w.files path = some data ∧
    largestValidPayloadSizeBytes < data.length

/-- The long name of the flag is used where the flag itself would be in order; a listing or the
version is asked for with PINs and nothing else; or the line is not documented and names a file that
is too long. -/
inductive IsMisjudged (w : World) (line : CommandLine) : Prop
  | longFlag (hhelp : ¬line.RequestsHelp) (hmanual : line.FollowsManual)
      (hfile : ¬line.NamesOversizedFile w) (hlong : .flag .obfuscateDeviceInfo true ∈ line.given)
  | pins (hsub : line.subcommand = .enumerate ∨ line.subcommand = .version)
      (hstrays : line.strays = []) (hgiven : line.given ≠ [])
      (hpins : ∀ g ∈ line.given, ∃ pin, g = .value .pin pin)
  | file (hdocumented : ¬line.IsDocumented) (hfile : line.NamesOversizedFile w)

end CommandLine

/-! ## What the loop gathers -/

section Values

@[simp] theorem valuesOf_append (option : ValueOption) (given given' : List Given) :
    valuesOf option (given ++ given') = valuesOf option given ++ valuesOf option given' :=
  List.filterMap_append

@[simp] theorem valuesOf_flag (option : ValueOption) (flag : Flag) (long : Bool) :
    valuesOf option [.flag flag long] = [] := rfl

@[simp] theorem valuesOf_value (option o : ValueOption) (v : CString) :
    valuesOf option [.value o v] = if o = option then [v] else [] := by
  by_cases h : o = option <;> simp [valuesOf, h]

theorem mem_valuesOf {option : ValueOption} {given : List Given} {v : CString} :
    v ∈ valuesOf option given ↔ .value option v ∈ given := by
  simp only [valuesOf, List.mem_filterMap]
  constructor
  · rintro ⟨g, hg, hv⟩
    cases g with
    | flag _ _ => simp at hv
    | value o v' =>
      obtain ⟨rfl, rfl⟩ : o = option ∧ v' = v := by simpa using hv
      exact hg
  · exact fun h => ⟨_, h, by simp⟩

end Values

/-- What the option loop makes of the options given. -/
structure Gathered (subcommand : Subcommand) (given : List Given) (state : InvocationState × Bool) :
    Prop where
  device : state.1.device = (valuesOf .device given).getLast?
  file : state.1.file = (valuesOf .file given).getLast?
  mixin : state.1.mixin = (valuesOf .mixin given).getLast?
  passphrase : state.1.passphrase = none ↔
    valuesOf .passphrase given = [] ∧ valuesOf .passphraseFile given = []
  kdfHardness : state.1.kdfHardness =
    (((valuesOf .kdfHardness given).getLast?).map hardnessOf).getD .unspecified
  obfuscateDeviceInfo : state.1.obfuscateDeviceInfo = true ↔
    .flag .obfuscateDeviceInfo false ∈ given
  subcommand : state.1.subcommand =
    if ∃ long, .flag .help long ∈ given then .help else subcommand
  invalid : state.2 = true ↔ .flag .obfuscateDeviceInfo true ∈ given

theorem Gathered.step {subcommand : Subcommand} {given : List Given} {state : InvocationState × Bool}
    (h : Gathered subcommand given state) (g : Given) (passphrase : CString) :
    Gathered subcommand (given ++ [g]) (g.reported.effect passphrase state) := by
  obtain ⟨hdevice, hfile, hmixin, hpassphrase, hhardness, hobfuscate, hsubcommand, hinvalid⟩ := h
  cases g with
  | flag flag long =>
    cases flag with
    | obfuscateDeviceInfo =>
      cases long <;> constructor <;>
        simp [*, Given.reported, ReportedOption.effect, ReportedOption.letter, lowercase]
    | help =>
      constructor <;>
        simp [*, Given.reported, ReportedOption.effect, ReportedOption.letter, lowercase]
  | value option v =>
    cases option <;> constructor <;>
      simp [*, Given.reported, ReportedOption.effect, ReportedOption.letter, lowercase]

theorem gathered_parseOptions (P : Platform) {subcommand : Subcommand} {before : List Given}
    {state : InvocationState × Bool} (h : Gathered subcommand before state) (given : List Given) :
    Returns (Gathered subcommand (before ++ given)) (parseOptions P (given.map Given.reported) state) := by
  induction given generalizing before state with
  | nil => exact returns_pure (by rwa [List.append_nil])
  | cons g given ih =>
    rw [List.append_cons]
    refine returns_bind_of (parseOption_effect P state g.reported) fun state' heffect => ?_
    obtain ⟨passphrase, -, rfl⟩ := heffect
    exact ih (h.step g passphrase)

theorem gathered_initial (subcommand : Subcommand) : Gathered subcommand [] ({ subcommand }, false) := by
  constructor <;> simp [valuesOf]

/-! ## How the loop ends -/

/-- The usage is not printed over it. -/
def Halt.IsNotUsage : Halt → Prop
  | .exit status _ => status ≠ .badInvocation
  | .fault _ => True

section Stops

variable {P : Platform} {w : World}

theorem notUsage_mallocOrExit (P : Platform) (n : ℕ) (what : String) :
    FailsIn Halt.IsNotUsage (mallocOrExit P n what) := failsIn_stopIf fun _ => by simp [Halt.IsNotUsage]

theorem notUsage_strdupOrExit (P : Platform) (s : CString) (what : String) :
    FailsIn Halt.IsNotUsage (strdupOrExit P s what) :=
  failsIn_bind (notUsage_mallocOrExit P _ _) fun _ _ => failsIn_ok _

theorem notUsage_strndupOrExit (P : Platform) (memory : Bytes) (n : ℕ) (what : String) :
    FailsIn Halt.IsNotUsage (strndupOrExit P memory n what) :=
  failsIn_bind (notUsage_mallocOrExit P _ _) fun _ _ => failsIn_ok _

theorem notUsage_readContent (P : Platform) (path : CString) (content : Option Bytes) :
    FailsIn Halt.IsNotUsage (readContent P path content) := by
  have hstop : ∀ (c : Prop) [Decidable c] message,
      FailsIn Halt.IsNotUsage (stopIf c (.exit .deserializationError message)) :=
    fun _ _ _ => failsIn_stopIf fun _ => by simp [Halt.IsNotUsage]
  refine failsIn_bind (notUsage_mallocOrExit P _ _) fun _ _ => ?_
  cases content with
  | none => exact failsIn_error (by simp [Halt.IsNotUsage])
  | some data =>
    refine failsIn_bind (hstop _ _) fun _ _ => failsIn_bind (hstop _ _) fun _ _ => ?_
    refine failsIn_bind (hstop _ _) fun _ _ => failsIn_bind (hstop _ _) fun _ _ => ?_
    refine failsIn_bind (hstop _ _) fun _ _ => ?_
    refine failsIn_bind (notUsage_mallocOrExit P _ _) fun _ _ => ?_
    refine failsIn_bind (hstop _ _) fun _ _ => ?_
    exact failsIn_bind (notUsage_mallocOrExit P _ _) fun _ _ => failsIn_ok _

theorem notUsage_parseOption (P : Platform) (state : InvocationState × Bool) (o : ReportedOption) :
    StopsIn Halt.IsNotUsage (parseOption P state o) := by
  obtain ⟨result, invalid⟩ := state
  unfold parseOption
  dsimp only
  split
  case h_1 | h_2 | h_6 =>
    exact stopsIn_bind (stopsIn_lift (notUsage_strdupOrExit P _ _)) fun _ _ _ _ => stopsIn_pure _
  case h_3 | h_5 =>
    exact stopsIn_bind (stopsIn_lift (notUsage_strndupOrExit P _ _ _)) fun _ _ _ _ => stopsIn_pure _
  case h_4 =>
    have hread : StopsIn Halt.IsNotUsage (readFile P o.optarg) :=
      stopsIn_bind stopsIn_get fun _ _ _ _ => stopsIn_lift (notUsage_readContent P _ _)
    refine stopsIn_bind hread fun _ _ _ _ => ?_
    exact stopsIn_bind (stopsIn_lift (notUsage_strndupOrExit P _ _ _)) fun _ _ _ _ => stopsIn_pure _
  all_goals exact stopsIn_pure _

theorem notUsage_parseOptions (P : Platform) (options : List ReportedOption)
    (state : InvocationState × Bool) : StopsIn Halt.IsNotUsage (parseOptions P options state) := by
  induction options generalizing state with
  | nil => exact stopsIn_pure _
  | cons o options ih =>
    exact stopsIn_bind (notUsage_parseOption P state o) fun state _ _ _ => ih state

theorem notUsage_supplyDefaults (P : Platform) (result : InvocationState) :
    StopsIn Halt.IsNotUsage (supplyDefaults P result) := by
  refine stopsIn_ite (fun _ => ?_) fun _ => stopsIn_pure _
  refine stopsIn_bind (stopsIn_lift (notUsage_mallocOrExit P _ _)) fun _ _ _ _ => ?_
  refine stopsIn_bind ?_ fun _ _ _ _ => stopsIn_pure _
  exact stopsIn_promptForSecret (by simp [unableToGet, Halt.IsNotUsage]) _

/-- What is given can be taken in: there is memory for each value, and the files are read. -/
structure TakenIn (P : Platform) (w : World) (given : List Given) : Prop where
  memory : P.Allocates ptrdiffMax
  sizes : ∀ option v, .value option v ∈ given → v.length < ptrdiffMax
  files : ∀ path, .value .passphraseFile path ∈ given → ∃ f, readFile P path w = .ok f w

theorem parseOption_of_takenIn {g : Given} (h : TakenIn P w [g]) (state : InvocationState × Bool) :
    ∃ state', parseOption P state g.reported w = .ok state' w := by
  have hdup : ∀ (v : CString) what, v.length < ptrdiffMax → strdupOrExit P v what = .ok v :=
    fun v what hv => strdupOrExit_of (h.memory _ hv) what
  have hcut : ∀ memory n what, n < ptrdiffMax →
      strndupOrExit P memory n what = .ok (strndup memory n) := fun memory n what hn =>
    strndupOrExit_of (h.memory _ (Nat.succ_le_of_lt ((strndup_length_le memory n).trans_lt hn))) what
  have hpassphrase : longestValidPassphrase < ptrdiffMax := by decide
  have hpin : longestValidPin < ptrdiffMax := by decide
  cases g with
  | flag flag long => cases flag <;> cases long <;> exact ⟨_, rfl⟩
  | value option v =>
    have hsize := h.sizes option v List.mem_cons_self
    cases option with
    | passphraseFile =>
      obtain ⟨f, hf⟩ := h.files v List.mem_cons_self
      have hl : ∀ n : ℕ, (if n > longestValidPassphrase then longestValidPassphrase else n) <
          ptrdiffMax := fun n => by split <;> omega
      have hletter : ReportedOption.letter ⟨'r', v⟩ = 'r' := by
        simp [ReportedOption.letter, lowercase]
      simp only [Given.reported, parseOption, hletter]
      rw [bind_of_ok hf]
      simp [hcut _ _ _ (hl _)]
    | passphrase =>
      simp [parseOption, Given.reported, ReportedOption.letter, lowercase, hcut _ _ _ hpassphrase]
    | pin => simp [parseOption, Given.reported, ReportedOption.letter, lowercase, hcut _ _ _ hpin]
    | _ => simp [parseOption, Given.reported, ReportedOption.letter, lowercase, hdup _ _ hsize]

theorem parseOptions_of_takenIn {given : List Given} (h : TakenIn P w given)
    (state : InvocationState × Bool) :
    ∃ state', parseOptions P (given.map Given.reported) state w = .ok state' w := by
  induction given generalizing state with
  | nil => exact ⟨state, rfl⟩
  | cons g given ih =>
    have hone : TakenIn P w [g] := by
      refine ⟨h.memory, fun option v hv => ?_, fun path hpath => ?_⟩
      · exact h.sizes option v (List.mem_singleton.mp hv ▸ List.mem_cons_self)
      · exact h.files path (List.mem_singleton.mp hpath ▸ List.mem_cons_self)
    obtain ⟨state₁, hfirst⟩ := parseOption_of_takenIn hone state
    obtain ⟨state', hrest⟩ := ih ⟨h.memory, fun option v hv => h.sizes option v
      (List.mem_cons_of_mem g hv), fun path hpath => h.files path (List.mem_cons_of_mem g hpath)⟩ state₁
    exact ⟨state', (bind_of_ok hfirst _).trans hrest⟩

/-- A file that is too long stops the loop, wherever it is named. -/
theorem parseOptions_of_oversized {given : List Given} {path : CString} {data : Bytes}
    (hpath : .value .passphraseFile path ∈ given) (hdata : w.files path = some data)
    (hl : largestValidPayloadSizeBytes < data.length) (state state' : InvocationState × Bool)
    (w' : World) : parseOptions P (given.map Given.reported) state w ≠ .ok state' w' := by
  intro h
  induction given generalizing state w with
  | nil => simp at hpath
  | cons g given ih =>
    simp only [List.map_cons, parseOptions, bind_eq_ok] at h
    obtain ⟨state₁, w₁, hfirst, hrest⟩ := h
    rcases List.mem_cons.mp hpath with rfl | hpath
    · have hletter : ReportedOption.letter ⟨'r', path⟩ = 'r' := by
        simp [ReportedOption.letter, lowercase]
      simp only [Given.reported, parseOption, hletter, bind_eq_ok, readFile, lift_eq_ok,
        get_apply] at hfirst
      obtain ⟨f, w₂, ⟨_, _, hget, hread, -⟩, -⟩ := hfirst
      obtain ⟨rfl, rfl⟩ := EStateM.Result.ok.inj hget
      obtain ⟨hs, -, -, hle⟩ := readContent_spec hread
      rw [hdata] at hs
      rw [← Option.some.inj hs] at hle
      exact absurd hle (not_le.mpr hl)
    · have hsame : SameFiles w w₁ := (keeps_parseOption P state g.reported).of_ok hfirst
      exact ih hpath (by rw [hsame, hdata]) state₁ hrest

/-- Behind the loop the usage is printed exactly when one of the checks fails. -/
theorem completeInvocation_iff (name : CString) {operands : List CString}
    {state : InvocationState × Bool} (hsub : state.1.subcommand ≠ .unknown) :
    (∀ m w', completeInvocation P name operands state w ≠ .error (.exit .badInvocation m) w') ↔
      state.1.subcommand = .help ∨ state.2 = false ∧ operands.tail = [] ∧
        breaksRequirements state.1 = false := by
  have hextra : extraArguments state.1 operands = operands.tail := by
    simp [extraArguments, hsub]
  obtain ⟨u, w₁, hreport⟩ : ∃ u w₁, reportExtraArguments name operands.tail w = .ok u w₁ := by
    unfold reportExtraArguments
    split <;> exact ⟨_, _, rfl⟩
  have hrun : completeInvocation P name operands state w = (if state.1.subcommand ≠ .help ∧
      (state.2 || !operands.tail.isEmpty || breaksRequirements state.1) = true then usageAndExit name
      else supplyDefaults P state.1 : Program InvocationState) w₁ := by
    unfold completeInvocation
    simp only [lateSubcommand_of_known hsub, hextra]
    exact bind_of_ok hreport _
  rw [hrun]
  constructor
  · intro h
    by_contra hneither
    obtain ⟨hhelp, hchecks⟩ := not_or.mp hneither
    refine h ⟨"", []⟩ (World.printf (usage name) w₁) ?_
    rw [if_pos]
    · rfl
    · refine ⟨hhelp, ?_⟩
      simpa [imp_iff_not_or, or_assoc] using hchecks
  · rintro h m w' hstop
    rw [if_neg] at hstop
    · exact notUsage_supplyDefaults P state.1 _ _ _ hstop rfl
    · rintro ⟨hhelp, hfailed⟩
      rcases h with h | ⟨hvalid, hstrays, hbreaks⟩
      · exact hhelp h
      · simp [hvalid, hstrays, hbreaks] at hfailed

end Stops

/-! ## The checks and the manual -/

theorem hardnessOf_ne_unspecified (v : CString) : hardnessOf v ≠ .unspecified := by
  unfold hardnessOf
  split <;> simp

/-- Only the first byte counts, and an empty value has the terminator for it. -/
theorem hardnessOf_eq (v : CString) : hardnessOf v = hardnessOf (cString [v.bytes.headD 0]) := by
  have hhead : ∀ x : UInt8, (cString [x]).bytes.headD 0 = x := by
    intro x
    by_cases hx : x = 0 <;> simp [cString, hx]
  unfold hardnessOf
  rw [hhead]

theorem hardnessOf_ne_invalid_iff (v : CString) : hardnessOf v ≠ .invalid ↔ IsHardness v := by
  have hall : ∀ n : Fin 256, hardnessOf (cString [UInt8.ofNat n]) ≠ .invalid ↔
      UInt8.ofNat n ∈ hardnessLetters := by decide +kernel
  have hbyte : ∀ x : UInt8, hardnessOf (cString [x]) ≠ .invalid ↔ x ∈ hardnessLetters := fun x => by
    simpa using hall ⟨x.toNat, x.toNat_lt⟩
  rw [hardnessOf_eq, hbyte]
  unfold IsHardness
  cases v.bytes with
  | nil => decide
  | cons x rest => simp

section Manual

variable {subcommand : Subcommand} {given : List Given} {state : InvocationState × Bool}

theorem options_iff (allowed : List ValueOption) :
    (∀ option v, .value option v ∈ given → option ∈ allowed) ↔
      ∀ option ∉ allowed, valuesOf option given = [] := by
  constructor
  · intro h option hoption
    apply List.eq_nil_iff_forall_not_mem.mpr
    exact fun v hv => hoption (h option v (mem_valuesOf.mp hv))
  · intro h option v hv
    by_contra hoption
    have hmem := mem_valuesOf.mpr hv
    rw [h option hoption] at hmem
    simp at hmem

theorem Gathered.breaks_enrol (h : Gathered .enrol given state)
    (hsub : state.1.subcommand = .enrol) :
    breaksRequirements state.1 = false ↔ valuesOf .device given ≠ [] ∧ valuesOf .file given ≠ [] ∧
      valuesOf .mixin given = [] ∧
      ∀ v, (valuesOf .kdfHardness given).getLast? = some v → IsHardness v := by
  have hhardness : state.1.kdfHardness ≠ .invalid ↔
      ∀ v, (valuesOf .kdfHardness given).getLast? = some v → IsHardness v := by
    rw [h.kdfHardness]
    cases (valuesOf .kdfHardness given).getLast? with
    | none => simp
    | some v => simpa using hardnessOf_ne_invalid_iff v
  rw [← hhardness]
  simp [breaksRequirements, hsub, h.device, h.file, h.mixin, and_assoc]

theorem Gathered.invalid_eq_false (h : Gathered subcommand given state) :
    state.2 = false ↔ .flag .obfuscateDeviceInfo true ∉ given := by
  rw [← h.invalid, Bool.not_eq_true]

theorem isHardness_of_nil (given : List Given) : valuesOf .kdfHardness given = [] →
    ∀ v, (valuesOf .kdfHardness given).getLast? = some v → IsHardness v := by
  intro hnil v hv
  simp [hnil] at hv

theorem Gathered.unspecified_iff (h : Gathered subcommand given state) :
    state.1.kdfHardness = .unspecified ↔ valuesOf .kdfHardness given = [] := by
  rw [h.kdfHardness, ← List.getLast?_eq_none_iff]
  cases (valuesOf .kdfHardness given).getLast? with
  | none => simp
  | some v => simpa using hardnessOf_ne_unspecified v

theorem Gathered.breaks_generate (h : Gathered .generate given state)
    (hsub : state.1.subcommand = .generate) :
    breaksRequirements state.1 = false ↔ valuesOf .device given = [] ∧ valuesOf .file given ≠ [] ∧
      .flag .obfuscateDeviceInfo false ∉ given ∧ valuesOf .kdfHardness given = [] := by
  simp [breaksRequirements, hsub, h.device, h.file, h.unspecified_iff, ← h.obfuscateDeviceInfo,
    and_assoc]

theorem Gathered.breaks_other (h : Gathered subcommand given state)
    (hsub : state.1.subcommand = .enumerate ∨ state.1.subcommand = .version) :
    breaksRequirements state.1 = false ↔ valuesOf .device given = [] ∧ valuesOf .file given = [] ∧
      valuesOf .mixin given = [] ∧
      (valuesOf .passphrase given = [] ∧ valuesOf .passphraseFile given = []) ∧
      .flag .obfuscateDeviceInfo false ∉ given ∧ valuesOf .kdfHardness given = [] := by
  rcases hsub with hsub | hsub <;>
    simp [breaksRequirements, hsub, h.device, h.file, h.mixin, h.unspecified_iff, ← h.passphrase,
      ← h.obfuscateDeviceInfo, and_assoc]

theorem forall_valueOption {p : ValueOption → Prop} : (∀ option, p option) ↔
    p .device ∧ p .file ∧ p .passphrase ∧ p .passphraseFile ∧ p .pin ∧ p .mixin ∧ p .kdfHardness := by
  constructor
  · exact fun h => ⟨h _, h _, h _, h _, h _, h _, h _⟩
  · rintro ⟨hd, hf, hp, hr, hn, hm, hk⟩ option
    cases option <;> assumption

theorem forall_flag {p : Flag → Prop} : (∀ flag, p flag) ↔ p .obfuscateDeviceInfo ∧ p .help := by
  constructor
  · exact fun h => ⟨h _, h _⟩
  · rintro ⟨ho, hh⟩ flag
    cases flag <;> assumption

/-- The manual, as a formula over the values of each option. -/
theorem followsManual_iff {line : CommandLine} (hhelp : ∀ long, .flag .help long ∉ line.given) :
    line.FollowsManual ↔ line.strays = [] ∧
      (∀ option ∈ line.subcommand.requiredOptions, valuesOf option line.given ≠ []) ∧
      (∀ option ∉ line.subcommand.allowedOptions, valuesOf option line.given = []) ∧
      (.obfuscateDeviceInfo ∈ line.subcommand.allowedFlags ∨
        .flag .obfuscateDeviceInfo false ∉ line.given ∧
        .flag .obfuscateDeviceInfo true ∉ line.given) ∧
      ∀ v, (valuesOf .kdfHardness line.given).getLast? = some v → IsHardness v := by
  have hflags : (∀ flag long, .flag flag long ∈ line.given → flag ∈ line.subcommand.allowedFlags) ↔
      .obfuscateDeviceInfo ∈ line.subcommand.allowedFlags ∨
        .flag .obfuscateDeviceInfo false ∉ line.given ∧
        .flag .obfuscateDeviceInfo true ∉ line.given := by
    rw [forall_flag, Bool.forall_bool, Bool.forall_bool]
    have := hhelp false
    have := hhelp true
    tauto
  rw [← options_iff, ← hflags]
  exact ⟨fun h => ⟨h.strays, h.required, h.options, h.flags, h.hardness⟩,
    fun ⟨hs, hr, ho, hf, hk⟩ => ⟨hs, hr, ho, hf, hk⟩⟩

/-- What the checks behind the loop make of a line, when no help is asked for. -/
def CommandLine.Passes (line : CommandLine) (state : InvocationState × Bool) : Prop :=
  state.2 = false ∧ line.strays = [] ∧ breaksRequirements state.1 = false

section Compared

variable {line : CommandLine} (hhelp : ∀ long, .flag .help long ∉ line.given)
  (h : Gathered line.subcommand line.given state) (hstate : state.1.subcommand = line.subcommand)
include hhelp h hstate

theorem passes_iff_enrol (hsub : line.subcommand = .enrol) :
    line.Passes state ↔ line.FollowsManual ∧ .flag .obfuscateDeviceInfo true ∉ line.given := by
  have hinvalid := h.invalid_eq_false
  rw [hsub] at h hstate
  rw [CommandLine.Passes, hinvalid, h.breaks_enrol hstate, followsManual_iff hhelp, hsub]
  simp only [forall_valueOption, Subcommand.requiredOptions, Subcommand.allowedOptions,
    Subcommand.allowedFlags]
  simp only [ne_eq, List.mem_cons, reduceCtorEq, List.not_mem_nil, or_self, or_false, forall_const,
    or_true, IsEmpty.forall_iff, and_self, and_true, not_true_eq_false, not_false_eq_true, true_and,
    true_or]
  tauto

theorem passes_iff_generate (hsub : line.subcommand = .generate) :
    line.Passes state ↔ line.FollowsManual := by
  have hinvalid := h.invalid_eq_false
  rw [hsub] at h hstate
  rw [CommandLine.Passes, hinvalid, h.breaks_generate hstate, followsManual_iff hhelp, hsub]
  simp only [forall_valueOption, Subcommand.requiredOptions, Subcommand.allowedOptions,
    Subcommand.allowedFlags]
  have hnone := isHardness_of_nil line.given
  simp only [ne_eq, List.mem_cons, reduceCtorEq, List.not_mem_nil, or_self, IsEmpty.forall_iff,
    or_false, forall_const, and_self, and_true, true_and, not_false_eq_true, not_true_eq_false,
    or_true, false_or]
  tauto

/-- For the other commands a PIN passes the checks, but not the manual. -/
theorem passes_iff_other (hsub : line.subcommand = .enumerate ∨ line.subcommand = .version) :
    line.FollowsManual ↔ line.Passes state ∧ valuesOf .pin line.given = [] := by
  have hinvalid := h.invalid_eq_false
  rw [CommandLine.Passes, hinvalid, h.breaks_other (hstate ▸ hsub), followsManual_iff hhelp]
  have hnone := isHardness_of_nil line.given
  rcases hsub with hsub | hsub <;>
    simp only [hsub, forall_valueOption, Subcommand.requiredOptions, Subcommand.allowedOptions,
      Subcommand.allowedFlags]
  all_goals simp only [List.not_mem_nil, ne_eq, IsEmpty.forall_iff, and_self, not_false_eq_true,
    forall_const, false_or, true_and]
  all_goals
    constructor
    · rintro ⟨hstrays, ⟨hd, hf, hp, hr, hn, hm, hk⟩, ⟨hshort, hlong⟩, -⟩
      exact ⟨⟨hlong, hstrays, hd, hf, hm, ⟨hp, hr⟩, hshort, hk⟩, hn⟩
    · rintro ⟨⟨hlong, hstrays, hd, hf, hm, ⟨hp, hr⟩, hshort, hk⟩, hn⟩
      exact ⟨hstrays, ⟨hd, hf, hp, hr, hn, hm, hk⟩, ⟨hshort, hlong⟩, hnone hk⟩

end Compared

end Manual

/-! ## Accepted lines -/

section Lines

variable {P : Platform} {w : World} {line : CommandLine} {state : InvocationState × Bool}

theorem parseArguments_of_circumstances (hc : line.Circumstances P w) :
    parseArgumentsAndGetPassphrase P line.argv w =
      (parseOptions P (line.given.map Given.reported) ({ subcommand := line.subcommand }, false) >>=
        completeInvocation P line.name (line.subcommand.name :: line.strays)) w := by
  have hmalloc : P.malloc sizeofInvocationState = true := hc.memory _ (by decide)
  rw [CommandLine.argv, parseArgumentsAndGetPassphrase,
    bind_of_ok (lift_eq_ok.mpr ⟨mallocOrExit_of hmalloc _, rfl⟩), subcommandOf_name line.known]
  have hscan : P.getoptLong line.argv = _ := hc.scanner.trans (getoptLong_argv line)
  simp only [CommandLine.argv] at hscan
  simp only [hscan]

/-- A passphrase file that is too long ends the run before any check. -/
theorem isAccepted_of_oversized (hc : line.Circumstances P w) (h : line.NamesOversizedFile w) :
    line.IsAccepted P w := by
  obtain ⟨path, hpath, data, hdata, hl⟩ := h
  intro m w' hstop
  rw [parseArguments_of_circumstances hc] at hstop
  rcases bind_eq_error.mp hstop with hstop | ⟨state, w₁, hrun, -⟩
  · exact notUsage_parseOptions P _ _ _ _ _ hstop rfl
  · exact parseOptions_of_oversized (mem_valuesOf.mp hpath) hdata hl _ _ _ hrun

theorem takenIn_of_circumstances (hc : line.Circumstances P w) (h : ¬line.NamesOversizedFile w) :
    TakenIn P w line.given where
  memory := hc.memory
  sizes := hc.sizes
  files path hpath := by
    obtain ⟨data, hdata, hne⟩ := hc.files path (mem_valuesOf.mpr hpath)
    have hl : data.length ≤ largestValidPayloadSizeBytes := by
      by_contra hlong
      exact h ⟨path, mem_valuesOf.mpr hpath, data, hdata, not_le.mp hlong⟩
    have hmemory : P.Allocates largestValidPayloadSizeBytes :=
      hc.memory.mono largestValidPayloadSizeBytes_lt.le
    exact ⟨_, readFile_of_stored hc.reading hmemory (hc.memory _ (hc.sizes _ path hpath)) hdata hl hne⟩

theorem requestsHelp_iff (h : Gathered line.subcommand line.given state) :
    state.1.subcommand = .help ↔ line.RequestsHelp := by
  rw [h.subcommand, CommandLine.RequestsHelp]
  split <;> simp_all

/-- Otherwise the loop ends, and help or the checks decide. -/
theorem isAccepted_iff (hc : line.Circumstances P w) (h : ¬line.NamesOversizedFile w) :
    ∃ state, Gathered line.subcommand line.given state ∧
      (line.IsAccepted P w ↔ line.RequestsHelp ∨ line.Passes state) := by
  obtain ⟨state, hrun⟩ := parseOptions_of_takenIn (takenIn_of_circumstances hc h)
    ({ subcommand := line.subcommand }, false)
  have hgathered : Gathered line.subcommand line.given state :=
    gathered_parseOptions P (gathered_initial line.subcommand) line.given _ _ _ hrun
  have hknown : state.1.subcommand ≠ .unknown := by
    rw [hgathered.subcommand]
    split
    · simp
    · exact line.known
  refine ⟨state, hgathered, ?_⟩
  rw [CommandLine.IsAccepted, parseArguments_of_circumstances hc, bind_of_ok hrun,
    completeInvocation_iff line.name hknown, requestsHelp_iff hgathered]
  rfl

theorem not_help_of_pins (hsub : line.subcommand = .enumerate ∨ line.subcommand = .version)
    (hpins : ∀ g ∈ line.given, ∃ pin, g = .value .pin pin) :
    ¬line.RequestsHelp ∧ ¬line.NamesOversizedFile w := by
  constructor
  · rintro (hhelp | ⟨long, hlong⟩)
    · simp [hhelp] at hsub
    · obtain ⟨pin, hpin⟩ := hpins _ hlong
      simp at hpin
  · rintro ⟨path, hpath, -⟩
    obtain ⟨pin, hpin⟩ := hpins _ (mem_valuesOf.mp hpath)
    simp at hpin

/-- What passes the checks of the commands without options is nothing but PINs. -/
theorem pins_of_passes (hhelp : ∀ long, .flag .help long ∉ line.given)
    (h : Gathered line.subcommand line.given state)
    (hsub : state.1.subcommand = .enumerate ∨ state.1.subcommand = .version)
    (hpasses : line.Passes state) : ∀ g ∈ line.given, ∃ pin, g = .value .pin pin := by
  obtain ⟨hinvalid, -, hbreaks⟩ := hpasses
  obtain ⟨hd, hf, hm, ⟨hp, hr⟩, ho, hk⟩ := (h.breaks_other hsub).mp hbreaks
  have hlong := h.invalid_eq_false.mp hinvalid
  intro g hg
  cases g with
  | flag flag long => cases flag <;> cases long <;> simp_all
  | value option v =>
    have hv := mem_valuesOf.mpr hg
    cases option <;> first | exact ⟨v, rfl⟩ | simp_all

theorem isMisjudged_iff_of_oversized (h : line.NamesOversizedFile w) :
    line.IsMisjudged w ↔ ¬line.IsDocumented := by
  constructor
  · intro hmisjudged
    cases hmisjudged with
    | longFlag _ _ hfile _ => exact absurd h hfile
    | pins hsub _ _ hpins => exact absurd h (not_help_of_pins hsub hpins).2
    | file hdocumented _ => exact hdocumented
  · exact fun hdocumented => .file hdocumented h

theorem isMisjudged_iff_of_not_help (hhelp : ¬line.RequestsHelp) (hfile : ¬line.NamesOversizedFile w) :
    line.IsMisjudged w ↔ line.FollowsManual ∧ .flag .obfuscateDeviceInfo true ∈ line.given ∨
      (line.subcommand = .enumerate ∨ line.subcommand = .version) ∧ line.strays = [] ∧
        line.given ≠ [] ∧ ∀ g ∈ line.given, ∃ pin, g = .value .pin pin := by
  constructor
  · intro hmisjudged
    cases hmisjudged with
    | longFlag _ hmanual _ hlong => exact Or.inl ⟨hmanual, hlong⟩
    | pins hsub hstrays hgiven hpins => exact Or.inr ⟨hsub, hstrays, hgiven, hpins⟩
    | file _ hoversized => exact absurd hoversized hfile
  · rintro (⟨hmanual, hlong⟩ | ⟨hsub, hstrays, hgiven, hpins⟩)
    · exact .longFlag hhelp hmanual hfile hlong
    · exact .pins hsub hstrays hgiven hpins

theorem pins_iff_passes (hhelp : ∀ long, .flag .help long ∉ line.given)
    (h : Gathered line.subcommand line.given state)
    (hsub : state.1.subcommand = .enumerate ∨ state.1.subcommand = .version) :
    (line.strays = [] ∧ line.given ≠ [] ∧ ∀ g ∈ line.given, ∃ pin, g = .value .pin pin) ↔
      line.Passes state ∧ valuesOf .pin line.given ≠ [] := by
  constructor
  · rintro ⟨hstrays, hgiven, hpins⟩
    have hflag : ∀ flag long, .flag flag long ∉ line.given := by
      intro flag long hmem
      obtain ⟨pin, hpin⟩ := hpins _ hmem
      simp at hpin
    have hempty : ∀ option, option ≠ .pin → valuesOf option line.given = [] := by
      intro option hne
      apply List.eq_nil_iff_forall_not_mem.mpr
      intro v hv
      obtain ⟨pin, hpin⟩ := hpins _ (mem_valuesOf.mp hv)
      simp [hne] at hpin
    obtain ⟨g, hg⟩ := List.exists_mem_of_ne_nil _ hgiven
    obtain ⟨pin, rfl⟩ := hpins g hg
    refine ⟨⟨h.invalid_eq_false.mpr (hflag _ _), hstrays, (h.breaks_other hsub).mpr ?_⟩,
      List.ne_nil_of_mem (mem_valuesOf.mpr hg)⟩
    simp [hempty, hflag]
  · rintro ⟨hpasses, hpin⟩
    refine ⟨hpasses.2.1, ?_, pins_of_passes hhelp h hsub hpasses⟩
    rintro hnil
    rw [hnil] at hpin
    exact hpin rfl

/-- The lines accepted are the ones documented, except those that are misjudged. -/
theorem accepted_iff_documented_iff (hc : line.Circumstances P w) :
    (line.IsAccepted P w ↔ line.IsDocumented) ↔ ¬line.IsMisjudged w := by
  by_cases hfile : line.NamesOversizedFile w
  · rw [isMisjudged_iff_of_oversized hfile, not_not]
    simp [isAccepted_of_oversized hc hfile]
  obtain ⟨state, hgathered, haccepted⟩ := isAccepted_iff hc hfile
  rw [haccepted, CommandLine.IsDocumented]
  by_cases hhelp : line.RequestsHelp
  · have hjudged : ¬line.IsMisjudged w := by
      intro hmisjudged
      cases hmisjudged with
      | longFlag hno _ _ _ => exact hno hhelp
      | pins hsub _ _ hpins => exact (not_help_of_pins (w := w) hsub hpins).1 hhelp
      | file _ hoversized => exact hfile hoversized
    simp [hhelp, hjudged]
  simp only [hhelp, false_or]
  obtain ⟨hnohelp, hnoflag⟩ := not_or.mp hhelp
  rw [not_exists] at hnoflag
  have hstate : state.1.subcommand = line.subcommand := by
    rw [hgathered.subcommand, if_neg (by simpa using hnoflag)]
  rw [isMisjudged_iff_of_not_help hhelp hfile]
  have hlong : line.Passes state → .flag .obfuscateDeviceInfo true ∉ line.given :=
    fun hpasses => hgathered.invalid_eq_false.mp hpasses.1
  have hlisting : line.subcommand = .enumerate ∨ line.subcommand = .version →
      ((line.Passes state ↔ line.FollowsManual) ↔
        ¬(line.FollowsManual ∧ .flag .obfuscateDeviceInfo true ∈ line.given ∨
          (line.subcommand = .enumerate ∨ line.subcommand = .version) ∧ line.strays = [] ∧
            line.given ≠ [] ∧ ∀ g ∈ line.given, ∃ pin, g = .value .pin pin)) := by
    intro hsub
    rw [pins_iff_passes hnoflag hgathered (hstate ▸ hsub),
      passes_iff_other hnoflag hgathered hstate hsub]
    by_cases hpasses : line.Passes state
    · simp [hpasses, hlong hpasses, hsub]
    · simp [hpasses]
  cases hsub : line.subcommand with
  | unknown => exact absurd hsub line.known
  | help => exact absurd hsub hnohelp
  | enrol =>
    rw [passes_iff_enrol hnoflag hgathered hstate hsub]
    simp only [reduceCtorEq, false_and, or_false]
    rw [and_iff_left_iff_imp, not_and]
  | generate =>
    rw [passes_iff_generate hnoflag hgathered hstate hsub] at hlong ⊢
    simp only [reduceCtorEq, false_and, or_false, true_iff]
    exact fun hmisjudged => hlong hmisjudged.1 hmisjudged.2
  | enumerate => simpa only [hsub] using hlisting (Or.inl hsub)
  | version => simpa only [hsub] using hlisting (Or.inr hsub)

end Lines

/-! ## Some command lines -/

/-- A host whose C library scans options with the tables of the program. -/
def scanningHost : Platform := { referenceHost referenceDevice with getoptLong := getoptLong }

/-- `khefin enrol -d /dev/hidraw0 -f keyfile` and these arguments. -/
def enrolLine (arguments : List WrittenArgument) : CommandLine where
  name := literal "khefin"
  subcommand := .enrol
  known := by decide
  arguments := [.value [] .device (literal "/dev/hidraw0") false (by decide),
    .value [] .file (literal "keyfile") false (by decide)] ++ arguments

/-- `khefin version --pin=1234` -/
def versionLine : CommandLine where
  name := literal "khefin"
  subcommand := .version
  known := by decide
  arguments := [.longValue .pin (literal "1234") true]

/-- Small values, and no passphrase file. -/
def CommandLine.IsModest (line : CommandLine) : Prop :=
  (line.given.all fun g => match g with
    | .flag _ _ => true
    | .value _ v => decide (v.length < ptrdiffMax)) = true ∧
  valuesOf .passphraseFile line.given = []

instance (line : CommandLine) : Decidable line.IsModest := inferInstanceAs (Decidable (_ ∧ _))

theorem CommandLine.IsModest.circumstances {line : CommandLine} (h : line.IsModest) :
    line.Circumstances scanningHost emptyWorld where
  scanner := rfl
  memory _ hn := decide_eq_true hn
  sizes option v hv := by simpa using List.all_eq_true.mp h.1 _ hv
  reading := rfl
  files path hpath := by simp [h.2] at hpath

theorem CommandLine.IsModest.not_oversized {line : CommandLine} (h : line.IsModest) (w : World) :
    ¬line.NamesOversizedFile w := by
  rintro ⟨path, hpath, -⟩
  simp [h.2] at hpath

theorem accepted_iff_documented_enrol :
    (enrolLine [.flags .obfuscateDeviceInfo []]).IsAccepted scanningHost emptyWorld ↔
      (enrolLine [.flags .obfuscateDeviceInfo []]).IsDocumented := by
  have hmodest : (enrolLine [.flags .obfuscateDeviceInfo []]).IsModest := by decide
  refine (accepted_iff_documented_iff hmodest.circumstances).mpr fun hmisjudged => ?_
  cases hmisjudged with
  | longFlag _ _ _ hlong => exact absurd hlong (by decide)
  | pins hsub _ _ _ => exact absurd hsub (by decide)
  | file _ hoversized => exact hmodest.not_oversized _ hoversized

/-- The long name that the manual gives is rejected, and a PIN for the version is not. -/
theorem accepted_not_documented :
    ¬((enrolLine [.longFlag .obfuscateDeviceInfo]).IsAccepted scanningHost emptyWorld ↔
      (enrolLine [.longFlag .obfuscateDeviceInfo]).IsDocumented) ∧
    ¬(versionLine.IsAccepted scanningHost emptyWorld ↔ versionLine.IsDocumented) := by
  constructor
  · have hmodest : (enrolLine [.longFlag .obfuscateDeviceInfo]).IsModest := by decide
    have hgiven : (enrolLine [.longFlag .obfuscateDeviceInfo]).given =
        [.value .device (literal "/dev/hidraw0"), .value .file (literal "keyfile"),
          .flag .obfuscateDeviceInfo true] := rfl
    have hnoflag : ∀ long, .flag .help long ∉ (enrolLine [.longFlag .obfuscateDeviceInfo]).given := by
      simp [hgiven]
    have hmanual : (enrolLine [.longFlag .obfuscateDeviceInfo]).FollowsManual := by
      refine (followsManual_iff hnoflag).mpr ⟨rfl, by decide, ?_, Or.inl (by decide), ?_⟩
      · exact forall_valueOption.mpr (by decide)
      · exact isHardness_of_nil _ rfl
    obtain ⟨state, hgathered, haccepted⟩ :=
      isAccepted_iff hmodest.circumstances (hmodest.not_oversized emptyWorld)
    intro hiff
    rcases haccepted.mp (hiff.mpr (Or.inr hmanual)) with (hhelp | ⟨long, hhelp⟩) | hpasses
    · exact absurd hhelp (by decide)
    · exact hnoflag long hhelp
    · exact hgathered.invalid_eq_false.mp hpasses.1 (by decide)
  · have hmodest : versionLine.IsModest := by decide
    have hgiven : versionLine.given = [.value .pin (literal "1234")] := rfl
    have hnoflag : ∀ long, .flag .help long ∉ versionLine.given := by simp [hgiven]
    obtain ⟨state, hgathered, haccepted⟩ :=
      isAccepted_iff hmodest.circumstances (hmodest.not_oversized emptyWorld)
    have hsub : state.1.subcommand = .version := by
      rw [hgathered.subcommand, if_neg (by simpa using hnoflag)]
      rfl
    have hpasses : versionLine.Passes state :=
      ((pins_iff_passes hnoflag hgathered (Or.inr hsub)).mp
        ⟨rfl, by simp [hgiven], by simp [hgiven]⟩).1
    intro hiff
    rcases hiff.mp (haccepted.mpr (Or.inr hpasses)) with (hhelp | ⟨long, hhelp⟩) | hmanual
    · exact absurd hhelp (by decide)
    · exact hnoflag long hhelp
    · have hallowed := hmanual.options .pin (literal "1234") (by simp [hgiven])
      simp [versionLine, Subcommand.allowedOptions] at hallowed

end Khefin
