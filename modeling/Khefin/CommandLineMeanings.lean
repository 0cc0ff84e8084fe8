import Khefin.AcceptedCommandLines
import Khefin.VaultHistories

/-! # What a command line means

What is written last counts, and a passphrase is asked for only where none is written. -/

namespace Khefin
open CLibrary ExitingPrograms

/-- The passphrase that an option gives; a file gives what it holds. -/
def Given.passphrase (files : CString → Option Bytes) : Given → Option CString
  | .value .passphrase v => some (usedPart v)
  | .value .passphraseFile path => (files path).map (strndup · longestValidPassphrase)
  | _ => none

def Given.pin : Given → Option CString
  | .value .pin v => some (strndup v.bytes longestValidPin)
  | _ => none

def Given.isHelp : Given → Bool
  | .flag .help _ => true
  | _ => false

/-- The invocation that is written; the hardness of an enrolment is settled for the machine. -/
def CommandLine.meaning (line : CommandLine) (P : Platform) (files : CString → Option Bytes) :
    InvocationState :=
  settleHardness P {
    subcommand := if line.given.any Given.isHelp then .help else line.subcommand
    device := (valuesOf .device line.given).getLast?
    file := (valuesOf .file line.given).getLast?
    passphrase := (line.given.filterMap (Given.passphrase files)).getLast?
    authenticatorPin := (line.given.filterMap Given.pin).getLast?
    obfuscateDeviceInfo := decide (.flag .obfuscateDeviceInfo false ∈ line.given)
    kdfHardness := ((valuesOf .kdfHardness line.given).getLast?.map hardnessOf).getD .unspecified
    mixin := (valuesOf .mixin line.given).getLast? }

/-- A passphrase that is not written is asked for, as soon as the options are read. -/
inductive Completes (P : Platform) (w : World) (meaning : InvocationState) :
    InvocationState → World → Prop
  | written (hgiven : ¬meaning.NeedsPassphrase) {w' : World} (hseen : Unseen w w') :
      Completes P w meaning meaning w'
  | asked (hneeds : meaning.NeedsPassphrase) {passphrase : CString} {w' : World}
      (hprompt : promptForSecret P (literal "passphrase") longestValidPassphrase w =
        .ok passphrase w') :
      Completes P w meaning { meaning with passphrase := some passphrase } w'

/-! ## The option loop -/

/-- The last write is what is left. -/
theorem getLast?_filterMap_cons_or {α β : Type} (f : α → Option β) (a : α) (l : List α)
    (b : Option β) :
    ((a :: l).filterMap f).getLast?.or b = (l.filterMap f).getLast?.or ((f a).or b) := by
  cases ha : f a with
  | none => rw [List.filterMap_cons_none ha, Option.none_or]
  | some x =>
    rw [List.filterMap_cons_some ha, List.getLast?_cons]
    cases (l.filterMap f).getLast? <;> rfl

theorem strndup_limit (data : Bytes) (n : ℕ) :
    strndup data (if data.length > n then n else data.length) = strndup data n := by
  unfold strndup
  split
  · rfl
  · next h => rw [List.take_length, List.take_of_length_le (Nat.not_lt.mp h)]

section Loop

variable {P : Platform} {w w' : World} {state state' : InvocationState × Bool}

theorem passphrase_of_parseOption (g : Given)
    (h : parseOption P state g.reported w = .ok state' w') :
    state'.1.passphrase = (g.passphrase w.files).or state.1.passphrase := by
  obtain ⟨result, invalid⟩ := state
  cases g with
  | flag flag long =>
    refine parseOption_passphrase P _ ?_ _ _ _ h
    cases flag <;> cases long <;>
      constructor <;> simp [Given.reported, ReportedOption.letter, lowercase]
  | value option v =>
    cases option with
    | passphrase =>
      have hletter : ReportedOption.letter ⟨'p', v⟩ = 'p' :=
        (by decide : Char.ofNat (lowercase 'p'.toNat) = 'p')
      simp only [Given.reported, parseOption, hletter] at h
      obtain ⟨s, w₁, hlifted, hset⟩ := bind_eq_ok.mp h
      obtain ⟨hs, -⟩ := lift_eq_ok.mp hlifted
      obtain ⟨rfl, -⟩ := EStateM.Result.ok.inj hset
      exact congrArg some (strndupOrExit_eq_ok.mp hs).2.symm
    | passphraseFile =>
      have hletter : ReportedOption.letter ⟨'r', v⟩ = 'r' :=
        (by decide : Char.ofNat (lowercase 'r'.toNat) = 'r')
      simp only [Given.reported, parseOption, hletter] at h
      obtain ⟨f, w₁, hread, hrest⟩ := bind_eq_ok.mp h
      rw [readFile, bind_of_ok (get_apply w)] at hread
      obtain ⟨hcontent, -⟩ := lift_eq_ok.mp hread
      obtain ⟨s, w₂, hlifted, hset⟩ := bind_eq_ok.mp hrest
      obtain ⟨hs, -⟩ := lift_eq_ok.mp hlifted
      obtain ⟨rfl, -⟩ := EStateM.Result.ok.inj hset
      have hpassphrase : strndup f.data longestValidPassphrase = s :=
        (strndup_limit _ _).symm.trans (strndupOrExit_eq_ok.mp hs).2
      rw [Given.passphrase, (readContent_spec hcontent).1]
      exact congrArg some hpassphrase.symm
    | _ =>
      refine parseOption_passphrase P _ ?_ _ _ _ h
      constructor <;> simp [Given.reported, ReportedOption.letter, lowercase]

theorem passphrase_of_parseOptions (given : List Given)
    (h : parseOptions P (given.map Given.reported) state w = .ok state' w') :
    state'.1.passphrase =
      (given.filterMap (Given.passphrase w.files)).getLast?.or state.1.passphrase := by
  induction given generalizing state w with
  | nil =>
    obtain ⟨rfl, -⟩ := EStateM.Result.ok.inj h
    rfl
  | cons g given ih =>
    obtain ⟨state₁, w₁, hfirst, hrest⟩ := bind_eq_ok.mp h
    have hsame : w₁ = w := ((keeps_parseOption (R := Eq) P state g.reported).of_ok hfirst).symm
    subst hsame
    rw [ih hrest, passphrase_of_parseOption g hfirst, getLast?_filterMap_cons_or]

theorem optionPin_reported (pin : Option CString) (given : List Given) :
    optionPin pin (given.map Given.reported) = (given.filterMap Given.pin).getLast?.or pin := by
  induction given generalizing pin with
  | nil => rfl
  | cons g given ih =>
    have hfirst : optionPin pin [g.reported] = g.pin.or pin := by
      cases g with
      | flag flag long =>
        cases flag <;> cases long <;>
          simp [optionPin, Given.pin, Given.reported, ReportedOption.letter, lowercase]
      | value option v =>
        cases option <;>
          simp [optionPin, Given.pin, Given.reported, ReportedOption.letter, lowercase]
    rw [getLast?_filterMap_cons_or, ← hfirst, ← ih]
    rfl

theorem any_isHelp (given : List Given) :
    given.any Given.isHelp = true ↔ ∃ long, .flag .help long ∈ given := by
  rw [List.any_eq_true]
  constructor
  · rintro ⟨g, hg, hhelp⟩
    match g, hhelp with
    | .flag .help long, _ => exact ⟨long, hg⟩
  · rintro ⟨long, hlong⟩
    exact ⟨_, hlong, rfl⟩

/-- What the loop ends with is what is written. -/
theorem meaning_of_parseOptions {line : CommandLine}
    (h : parseOptions P (line.given.map Given.reported) ({ subcommand := line.subcommand }, false) w =
      .ok state w') : w' = w ∧ settleHardness P state.1 = line.meaning P w.files := by
  have hgathered := gathered_parseOptions P (gathered_initial line.subcommand) line.given _ _ _ h
  rw [List.nil_append] at hgathered
  have hpassphrase := passphrase_of_parseOptions line.given h
  have hpin := parseOptions_authenticatorPin P _ _ _ _ _ h
  rw [optionPin_reported, Option.or_none] at hpin
  rw [Option.or_none] at hpassphrase
  refine ⟨((keeps_parseOptions (R := Eq) P _ _).of_ok h).symm, ?_⟩
  rw [CommandLine.meaning]
  congr 1
  have hsubcommand := hgathered.subcommand
  simp only [← any_isHelp] at hsubcommand
  have hobfuscate : state.1.obfuscateDeviceInfo =
      decide (.flag .obfuscateDeviceInfo false ∈ line.given) := by
    rw [Bool.eq_iff_iff, hgathered.obfuscateDeviceInfo, decide_eq_true_eq]
  rw [← hgathered.device, ← hgathered.file, ← hgathered.mixin, ← hgathered.kdfHardness,
    ← hsubcommand, ← hobfuscate, ← hpassphrase, ← hpin]

end Loop

/-! ## Behind the loop -/

section Behind

variable {P : Platform} {w w' : World} {state : InvocationState × Bool} {invocation : InvocationState}

/-- What is left when the checks have passed; only help may have operands to complain about. -/
theorem completeInvocation_eq (name : CString) {operands : List CString}
    (hsub : state.1.subcommand ≠ .unknown)
    (hchecks : state.1.subcommand = .help ∨
      state.2 = false ∧ operands.tail = [] ∧ breaksRequirements state.1 = false) :
    ∃ w₁, Unseen w w₁ ∧ (state.1.subcommand ≠ .help → w₁ = w) ∧
      completeInvocation P name operands state w = supplyDefaults P state.1 w₁ := by
  have hextra : extraArguments state.1 operands = operands.tail := by
    simp [extraArguments, hsub]
  obtain ⟨w₁, hreported⟩ : ∃ w₁, reportExtraArguments name operands.tail w = .ok () w₁ := by
    unfold reportExtraArguments
    split <;> exact ⟨_, rfl⟩
  have hseen := (keeps_reportExtraArguments (tolerates_unseen _) name operands.tail).of_ok hreported
  refine ⟨w₁, hseen, fun hhelp => ?_, ?_⟩
  · rw [(hchecks.resolve_left hhelp).2.1] at hreported
    exact (EStateM.Result.ok.inj hreported).2.symm
  · unfold completeInvocation
    simp only [lateSubcommand_of_known hsub, hextra]
    rw [bind_of_ok hreported, if_neg]
    rintro ⟨hhelp, hfailed⟩
    obtain ⟨hvalid, hstrays, hbreaks⟩ := hchecks.resolve_left hhelp
    simp [hvalid, hstrays, hbreaks] at hfailed

theorem supplyDefaults_of_needs {i : InvocationState} (h : (settleHardness P i).NeedsPassphrase) :
    supplyDefaults P i = (do
      lift (mallocOrExit P (longestValidPassphrase + 1) "passphrase")
      let passphrase ← promptForSecret P (literal "passphrase") longestValidPassphrase
      return { settleHardness P i with passphrase := some passphrase }) := if_pos h

theorem supplyDefaults_of_given {i : InvocationState} (h : ¬(settleHardness P i).NeedsPassphrase) :
    supplyDefaults P i = return settleHardness P i := if_neg h

theorem ne_help_of_needs {i : InvocationState} (h : (settleHardness P i).NeedsPassphrase) :
    i.subcommand ≠ .help := by
  intro hhelp
  rw [settleHardness_eq] at h
  simp [InvocationState.NeedsPassphrase, hhelp] at h

theorem completes_of_supplyDefaults {i : InvocationState} {w₁ : World} (hseen : Unseen w w₁)
    (hsame : i.subcommand ≠ .help → w₁ = w) (h : supplyDefaults P i w₁ = .ok invocation w') :
    Completes P w (settleHardness P i) invocation w' := by
  by_cases hneeds : (settleHardness P i).NeedsPassphrase
  · rw [supplyDefaults_of_needs hneeds] at h
    obtain ⟨_, w₂, hlifted, hrest⟩ := bind_eq_ok.mp h
    obtain ⟨-, hw⟩ := lift_eq_ok.mp hlifted
    obtain ⟨passphrase, w₃, hprompt, hreturned⟩ := bind_eq_ok.mp hrest
    obtain ⟨rfl, rfl⟩ := EStateM.Result.ok.inj hreturned
    rw [hw, hsame (ne_help_of_needs hneeds)] at hprompt
    exact .asked hneeds hprompt
  · rw [supplyDefaults_of_given hneeds] at h
    obtain ⟨rfl, rfl⟩ := EStateM.Result.ok.inj h
    exact .written hneeds hseen

theorem supplyDefaults_of_completes {i : InvocationState} {w₁ : World}
    (hmalloc : P.malloc (longestValidPassphrase + 1) = true)
    (hsame : i.subcommand ≠ .help → w₁ = w) (h : Completes P w (settleHardness P i) invocation w') :
    ∃ w₂, supplyDefaults P i w₁ = .ok invocation w₂ := by
  cases h with
  | written hgiven =>
    rw [supplyDefaults_of_given hgiven]
    exact ⟨w₁, rfl⟩
  | asked hneeds hprompt =>
    rw [supplyDefaults_of_needs hneeds, hsame (ne_help_of_needs hneeds),
      bind_of_ok (lift_eq_ok.mpr ⟨mallocOrExit_of hmalloc _, rfl⟩), bind_of_ok hprompt]
    exact ⟨_, rfl⟩

end Behind

/-! ## Starts -/

section Starts

variable {l : Launch} {line : CommandLine} {invocation : InvocationState} {w : World}

theorem splitsInto_argv {P : Platform} (hscan : P.getoptLong line.argv = getoptLong line.argv) :
    SplitsInto P line.argv line.subcommand (line.given.map Given.reported)
      (line.subcommand.name :: line.strays) :=
  ⟨⟨_, _, _, rfl, subcommandOf_name line.known⟩, hscan.trans (getoptLong_argv line)⟩

theorem parsed_eq_some_iff : l.parsed = some (invocation, w) ↔ l.platform.sodiumInit = true ∧
    parseArgumentsAndGetPassphrase l.platform l.argv l.world = .ok invocation w := by
  unfold Launch.parsed
  split
  · next hfailed => simp [hfailed]
  · next hsodium =>
    split
    · next hparse => simp [hparse, hsodium]
    · next hparse => simp [hparse]

theorem known_of_gathered {state : InvocationState × Bool}
    (h : Gathered line.subcommand line.given state) : state.1.subcommand ≠ .unknown := by
  rw [h.subcommand]
  split
  · simp
  · exact line.known

/-- A start that gets past the parser has the invocation that is written. -/
theorem completes_of_parsed (hscan : l.platform.getoptLong line.argv = getoptLong line.argv)
    (hargv : l.argv = line.argv) (h : l.parsed = some (invocation, w)) :
    Completes l.platform l.world (line.meaning l.platform l.files) invocation w := by
  have hparse := (parsed_eq_some_iff.mp h).2
  rw [hargv] at hparse
  have hm : l.platform.malloc sizeofInvocationState = true := by
    obtain ⟨_, _, hm, -⟩ := bind_eq_ok.mp hparse
    exact mallocOrExit_eq_ok.mp (lift_eq_ok.mp hm).1
  obtain ⟨name, hrun⟩ := parseArguments_of_splits hm (splitsInto_argv hscan) (w := l.world)
  rw [hrun] at hparse
  obtain ⟨state, w₁, hoptions, hcomplete⟩ := bind_eq_ok.mp hparse
  obtain ⟨rfl, hmeaning⟩ := meaning_of_parseOptions hoptions
  have hgathered := gathered_parseOptions l.platform (gathered_initial line.subcommand) line.given
    _ _ _ hoptions
  have hknown := known_of_gathered hgathered
  have hchecks := (completeInvocation_iff name hknown).mp fun m w' hstop => by
    rw [hcomplete] at hstop
    cases hstop
  obtain ⟨w₂, hseen, hsame, heq⟩ := completeInvocation_eq (w := l.world) name hknown hchecks
  rw [heq] at hcomplete
  have hcompletes := completes_of_supplyDefaults hseen hsame hcomplete
  rw [hmeaning] at hcompletes
  exact hcompletes

/-- The other way round, where the line is accepted and memory is not short. -/
theorem exists_parsed_of_completes (hc : line.Circumstances l.platform l.world)
    (hfile : ¬line.NamesOversizedFile l.world) (haccepted : line.IsAccepted l.platform l.world)
    (hsodium : l.platform.sodiumInit = true) (hargv : l.argv = line.argv)
    (h : Completes l.platform l.world (line.meaning l.platform l.files) invocation w) :
    ∃ w', l.parsed = some (invocation, w') := by
  obtain ⟨state, hoptions⟩ := parseOptions_of_takenIn (takenIn_of_circumstances hc hfile)
    ({ subcommand := line.subcommand }, false)
  obtain ⟨-, hmeaning⟩ := meaning_of_parseOptions hoptions
  have hgathered := gathered_parseOptions l.platform (gathered_initial line.subcommand) line.given
    _ _ _ hoptions
  have hknown := known_of_gathered hgathered
  have hrun := parseArguments_of_circumstances hc
  rw [bind_of_ok hoptions] at hrun
  rw [CommandLine.IsAccepted, hrun] at haccepted
  have hchecks := (completeInvocation_iff line.name hknown).mp haccepted
  obtain ⟨w₁, -, hsame, heq⟩ := completeInvocation_eq (w := l.world) line.name hknown hchecks
  have hcompletes : Completes l.platform l.world (settleHardness l.platform state.1) invocation w := by
    rw [hmeaning]
    exact h
  obtain ⟨w₂, hsupplied⟩ :=
    supplyDefaults_of_completes (hc.memory _ (by decide)) hsame hcompletes
  rw [heq, hsupplied, ← hargv] at hrun
  exact ⟨w₂, parsed_eq_some_iff.mpr ⟨hsodium, hrun⟩⟩

/-- What a start runs is what is written, and what is written and accepted is run. -/
theorem runs_what_is_written (hscan : l.platform.getoptLong line.argv = getoptLong line.argv)
    (hargv : l.argv = line.argv) :
    (∀ invocation w, l.parsed = some (invocation, w) →
      Completes l.platform l.world (line.meaning l.platform l.files) invocation w) ∧
    (line.Circumstances l.platform l.world → ¬line.NamesOversizedFile l.world →
      line.IsAccepted l.platform l.world → l.platform.sodiumInit = true → ∀ invocation w,
        Completes l.platform l.world (line.meaning l.platform l.files) invocation w →
          ∃ w', l.parsed = some (invocation, w')) :=
  ⟨fun _ _ h => completes_of_parsed hscan hargv h, fun hc hfile haccepted hsodium _ _ h =>
    exists_parsed_of_completes hc hfile haccepted hsodium hargv h⟩

/-- `khefin generate -f old -p guess --mixin=backup -r secret -f keyfile` -/
def overridingLine : CommandLine where
  name := literal "khefin"
  subcommand := .generate
  known := by decide
  arguments := [.value [] .file (literal "old") false nofun,
    .value [] .passphrase (literal "guess") false nofun,
    .longValue .mixin (literal "backup") true,
    .value [] .passphraseFile (literal "secret") false nofun,
    .value [] .file (literal "keyfile") false nofun]

def overridingStart : Launch where
  platform := scanningHost
  argv := overridingLine.argv
  files := fun _ => some (literal "correct horse").bytes

def overridingInvocation : InvocationState where
  subcommand := .generate
  file := some (literal "keyfile")
  passphrase := some (literal "correct horse")
  mixin := some (literal "backup")

theorem runs_what_is_written_overriding : ∃ w,
    overridingStart.parsed = some (overridingInvocation, w) ∧
      Completes scanningHost overridingStart.world
        (overridingLine.meaning scanningHost overridingStart.files) overridingInvocation w := by
  have hgiven : overridingLine.given = [.value .file (literal "old"),
      .value .passphrase (literal "guess"), .value .mixin (literal "backup"),
      .value .passphraseFile (literal "secret"), .value .file (literal "keyfile")] := rfl
  have hmeaning : overridingLine.meaning scanningHost overridingStart.files =
      overridingInvocation := by decide
  have hsizes : ∀ option v, .value option v ∈ overridingLine.given → v.length < ptrdiffMax := by
    intro option v hv
    simp only [hgiven, List.mem_cons, Given.value.injEq, List.not_mem_nil, or_false] at hv
    rcases hv with ⟨-, rfl⟩ | ⟨-, rfl⟩ | ⟨-, rfl⟩ | ⟨-, rfl⟩ | ⟨-, rfl⟩ <;> decide
  have hc : overridingLine.Circumstances overridingStart.platform overridingStart.world :=
    ⟨rfl, fun _ hn => decide_eq_true hn, hsizes, rfl, fun _ _ => ⟨_, rfl, by decide⟩⟩
  have hfile : ¬overridingLine.NamesOversizedFile overridingStart.world := by
    rintro ⟨path, -, data, hdata, hl⟩
    obtain rfl := Option.some.inj hdata
    exact absurd hl (by decide)
  obtain ⟨state, hgathered, haccepted⟩ := isAccepted_iff hc hfile
  have hsub : state.1.subcommand = .generate := by
    rw [hgathered.subcommand, if_neg (by simp [hgiven])]
    rfl
  have hpasses : overridingLine.Passes state := by
    refine ⟨hgathered.invalid_eq_false.mpr (by simp [hgiven]), rfl, ?_⟩
    exact (Gathered.breaks_generate hgathered hsub).mpr (by decide)
  have hwritten : Completes scanningHost overridingStart.world
      (overridingLine.meaning scanningHost overridingStart.files) overridingInvocation
      overridingStart.world := by
    rw [hmeaning]
    exact .written (fun hneeds => Option.some_ne_none _ hneeds.2) (refl_of Unseen _)
  obtain ⟨hmeans, hruns⟩ := @runs_what_is_written overridingStart overridingLine rfl rfl
  obtain ⟨w, hparsed⟩ := hruns hc hfile (haccepted.mpr (.inr hpasses)) rfl _ _ hwritten
  exact ⟨w, hparsed, hmeans _ _ hparsed⟩

end Starts

/-! ## Generations that are written -/

/-- A value for an option, in the next word. -/
def WrittenArgument.separate (option : ValueOption) (value : CString) : WrittenArgument :=
  .value [] option value false nofun

/-- `khefin generate` and these arguments. -/
def CommandLine.generateWith (arguments : List WrittenArgument) : CommandLine where
  name := literal "khefin"
  subcommand := .generate
  known := by decide
  arguments := arguments

section Generations

variable {l : Launch} {line : CommandLine} {path : CString}

theorem given_generateWith (values : List (ValueOption × CString)) :
    (CommandLine.generateWith (values.map fun v => .separate v.1 v.2)).given =
      values.map fun v => .value v.1 v.2 := by
  rw [CommandLine.given, CommandLine.generateWith, List.flatMap_map]
  exact List.flatMap_pure_eq_map _ _

/-- Nothing but values that a generation takes, with a file among them. -/
theorem followsManual_generateWith {values : List (ValueOption × CString)}
    (hfile : ∃ path, (.file, path) ∈ values)
    (hallowed : ∀ v ∈ values, v.1 ∈ Subcommand.allowedOptions .generate) :
    (CommandLine.generateWith (values.map fun v => .separate v.1 v.2)).FollowsManual := by
  have hoption : ∀ option v, .value option v ∈ values.map (fun v => Given.value v.1 v.2) →
      (option, v) ∈ values := by
    intro option v hv
    obtain ⟨x, hx, heq⟩ := List.mem_map.mp hv
    obtain ⟨rfl, rfl⟩ := Given.value.inj heq
    exact hx
  constructor
  case strays =>
    rw [CommandLine.strays, CommandLine.generateWith, List.flatMap_map]
    exact List.flatMap_eq_nil_iff.mpr fun v _ => rfl
  case required =>
    intro option hrequired
    obtain rfl := List.mem_singleton.mp hrequired
    obtain ⟨path, hpath⟩ := hfile
    rw [given_generateWith]
    exact List.ne_nil_of_mem (mem_valuesOf.mpr (List.mem_map.mpr ⟨_, hpath, rfl⟩))
  case options =>
    intro option v hv
    rw [given_generateWith] at hv
    exact hallowed _ (hoption option v hv)
  case flags =>
    intro flag long hflag
    rw [given_generateWith] at hflag
    simp at hflag
  case hardness =>
    intro v hv
    have hmem := mem_valuesOf.mp (List.mem_of_getLast? hv)
    rw [given_generateWith] at hmem
    have hhardness : .kdfHardness ∈ Subcommand.allowedOptions .generate :=
      hallowed _ (hoption _ v hmem)
    exact absurd hhardness (by decide)

theorem meaning_of_generate (hsub : line.subcommand = .generate)
    (hhelp : line.given.any Given.isHelp = false) (P : Platform) (files : CString → Option Bytes) :
    (line.meaning P files).subcommand = .generate ∧
      (line.meaning P files).file = (valuesOf .file line.given).getLast? ∧
      (line.meaning P files).mixin = (valuesOf .mixin line.given).getLast? ∧
      (line.meaning P files).passphrase =
        (line.given.filterMap (Given.passphrase files)).getLast? := by
  rw [CommandLine.meaning, settleHardness_of_ne P (by simp [hhelp, hsub])]
  simp [hhelp, hsub]

/-- A written generation that succeeds has the passphrase that is written, or one it asked for. -/
theorem generates_of_written (hscan : l.platform.getoptLong = getoptLong)
    (hargv : l.argv = line.argv) (hsub : line.subcommand = .generate)
    (hhelp : line.given.any Given.isHelp = false)
    (hfile : (valuesOf .file line.given).getLast? = some path) (h : l.status = some .success) :
    ∃ passphrase, l.Generates path passphrase (valuesOf .mixin line.given).getLast? ∧
      ∀ p ∈ (line.given.filterMap (Given.passphrase l.files)).getLast?, passphrase = p := by
  cases hparsed : l.parsed with
  | none =>
    exact absurd rfl (Launch.among_of_not_parsed (S := (· ≠ .success)) (by decide) (by decide)
      (by decide) (by decide) (by decide) hparsed h)
  | some parsed =>
    obtain ⟨invocation, w⟩ := parsed
    obtain ⟨hgenerate, hpath, hmixin, hpassphrase⟩ :=
      meaning_of_generate hsub hhelp l.platform l.files
    rw [hfile] at hpath
    cases completes_of_parsed (by rw [hscan]) hargv hparsed with
    | written hgiven =>
      obtain ⟨passphrase, hwritten⟩ := Option.ne_none_iff_exists'.mp
        fun hnone => hgiven ⟨.inr hgenerate, hnone⟩
      refine ⟨passphrase, ⟨_, _, ⟨hparsed, hgenerate⟩, hpath, hwritten, hmixin⟩, fun p hp => ?_⟩
      exact Option.some.inj (hwritten.symm.trans (hpassphrase.trans hp))
    | @asked hneeds passphrase =>
      refine ⟨passphrase, ⟨_, _, ⟨hparsed, hgenerate⟩, hpath, rfl, hmixin⟩, fun p hp => ?_⟩
      cases (hneeds.2.symm.trans hpassphrase).trans hp

/-- Only the parser answers with the usage. -/
theorem refusal_of_badInvocation (h : l.parsed = none) (hstatus : l.status = some .badInvocation) :
    ∃ m w, parseArgumentsAndGetPassphrase l.platform l.argv l.world =
      .error (.exit .badInvocation m) w := by
  cases hsodium : l.platform.sodiumInit with
  | false =>
    have hstop : l.result = .error _ l.world :=
      bind_of_error (lift_eq_error.mpr ⟨stopIf_pos hsodium _, rfl⟩) _
    exact absurd rfl (Launch.status_of_error (S := (· ≠ .badInvocation)) hstop
      ExitStatus.noConfusion hstatus)
  | true =>
    cases hparse : parseArgumentsAndGetPassphrase l.platform l.argv l.world with
    | ok invocation w => cases h.symm.trans (parsed_eq_some_iff.mpr ⟨hsodium, hparse⟩)
    | error e w =>
      have hresult : l.result = .error e w := by
        rw [Launch.result, main_of_sodiumInit hsodium, bind_of_error hparse]
      rw [Launch.status, hresult] at hstatus
      cases e with
      | exit status m =>
        obtain rfl := Option.some.inj hstatus
        exact ⟨m, w, rfl⟩
      | fault operation => cases hstatus

/-- A line that passes the checks is not answered with the usage, whatever memory there is. -/
theorem isAccepted_of_passes {P : Platform} {w : World}
    (hscan : P.getoptLong line.argv = getoptLong line.argv)
    (hpasses : ∀ state, Gathered line.subcommand line.given state → line.Passes state) :
    line.IsAccepted P w := by
  intro m w' hstop
  have hparse := hstop
  rw [CommandLine.argv, parseArgumentsAndGetPassphrase] at hparse
  rcases bind_eq_error.mp hparse with hmemory | ⟨_, _, hmemory, -⟩
  · exact notUsage_mallocOrExit P _ _ _ (lift_eq_error.mp hmemory).1 rfl
  · have hm := mallocOrExit_eq_ok.mp (lift_eq_ok.mp hmemory).1
    obtain ⟨name, hrun⟩ := parseArguments_of_splits hm (splitsInto_argv hscan) (w := w)
    rw [hrun] at hstop
    rcases bind_eq_error.mp hstop with hstop | ⟨state, w₁, hoptions, hcomplete⟩
    · exact notUsage_parseOptions P _ _ _ _ _ hstop rfl
    · have hgathered := gathered_parseOptions P (gathered_initial line.subcommand) line.given
        _ _ _ hoptions
      refine (completeInvocation_iff name (known_of_gathered hgathered)).mpr ?_ m w' hcomplete
      exact .inr (hpasses state hgathered)

/-- A generation that follows the manual prints a key, or nothing. -/
theorem output_of_failed (hscan : l.platform.getoptLong = getoptLong) (hargv : l.argv = line.argv)
    (hsub : line.subcommand = .generate) (hhelp : line.given.any Given.isHelp = false)
    (hmanual : line.FollowsManual) (h : l.status ≠ some .success) : l.output = [] := by
  have hnohelp : ∀ long, .flag .help long ∉ line.given := by
    intro long hlong
    cases hhelp.symm.trans ((any_isHelp line.given).mpr ⟨long, hlong⟩)
  have haccepted : line.IsAccepted l.platform l.world := by
    refine isAccepted_of_passes (by rw [hscan]) fun state hgathered => ?_
    have hstate : state.1.subcommand = line.subcommand := by
      rw [hgathered.subcommand, if_neg fun hlong => hnohelp _ hlong.choose_spec]
    exact (passes_iff_generate hnohelp hgathered hstate hsub).mpr hmanual
  cases hparsed : l.parsed with
  | some parsed =>
    obtain ⟨invocation, w⟩ := parsed
    have hgenerate : invocation.subcommand = .generate := by
      cases completes_of_parsed (by rw [hscan]) hargv hparsed <;>
        exact (meaning_of_generate hsub hhelp l.platform l.files).1
    exact Classical.not_not.mp (mt (Launch.generated_output ⟨hparsed, hgenerate⟩).1.mpr h)
  | none =>
    obtain ⟨e, w, hresult, -, ⟨-, hout⟩ | ⟨hstatus, -⟩⟩ := Launch.result_of_not_parsed hparsed
    · rw [Launch.output, hresult]
      exact hout
    · obtain ⟨m, w', hrefused⟩ := refusal_of_badInvocation hparsed hstatus
      rw [hargv] at hrefused
      exact absurd hrefused (haccepted m w')

end Generations

end Khefin
