import Khefin.FitInvocations

/-! # The hardness of an enrolment that names none

The level is chosen by the product of two values that the system may not know. The
product is taken in a signed word and compared as an unsigned one. -/

namespace Khefin
open CLibrary ExitingPrograms

/-! ## The level of an invocation -/

section Parsing

variable {P : Platform} {argv : List CString}

theorem parseOption_kdfHardness {o : ReportedOption} (hk : o.letter ≠ 'k')
    (state : InvocationState × Bool) :
    Returns (fun state' => state'.1.kdfHardness = state.1.kdfHardness) (parseOption P state o) := by
  intro w state' w' h
  obtain ⟨passphrase, -, rfl⟩ := parseOption_effect P state o _ _ _ h
  unfold ReportedOption.effect
  split
  case h_7 hletter => exact absurd hletter hk
  all_goals rfl

theorem parseOptions_kdfHardness {options : List ReportedOption}
    (hk : ∀ o ∈ options, o.letter ≠ 'k') (state : InvocationState × Bool) :
    Returns (fun state' => state'.1.kdfHardness = state.1.kdfHardness)
      (parseOptions P options state) := by
  induction options generalizing state with
  | nil => exact returns_pure rfl
  | cons o options ih =>
    obtain ⟨hfirst, hothers⟩ := List.forall_mem_cons.mp hk
    refine returns_bind_of (parseOption_kdfHardness hfirst state) fun state₁ hstate₁ => ?_
    have hrest := ih hothers state₁
    rwa [hstate₁] at hrest

theorem lateSubcommand_kdfHardness (i : InvocationState) (operands : List CString) :
    (lateSubcommand i operands).kdfHardness = i.kdfHardness := by
  unfold lateSubcommand
  split
  · split_ifs <;> rfl
  · rfl

theorem supplyDefaults_kdfHardness {i : InvocationState} (hopen : i.kdfHardness = .unspecified) :
    Returns (fun result => result.subcommand = .enrol → result.kdfHardness = automaticHardness P)
      (supplyDefaults P i) := by
  have hsettled : (settleHardness P i).subcommand = .enrol →
      (settleHardness P i).kdfHardness = automaticHardness P := by
    unfold settleHardness
    split
    · exact fun _ => rfl
    · next hset => exact fun hsub => absurd ⟨hsub, hopen⟩ hset
  exact returns_supplyDefaults (fun _ _ _ => hsettled) fun _ => hsettled

/-- Without the option an enrolment gets the level chosen by the memory. -/
theorem parseArguments_kdfHardness (hk : ∀ o ∈ (P.getoptLong argv).options, o.letter ≠ 'k') :
    Returns (fun i => i.subcommand = .enrol → i.kdfHardness = automaticHardness P)
      (parseArgumentsAndGetPassphrase P argv) := by
  refine returns_parseArguments (T := fun state => state.1.kdfHardness = .unspecified) ?_ ?_
  · exact fun _ subcommand _ => parseOptions_kdfHardness hk ({ subcommand }, false)
  · intro name operands state hstate
    refine returns_bind fun _ => returns_ite (fun _ => returns_bind fun _ => returns_throw _) ?_
    exact fun _ => supplyDefaults_kdfHardness ((lateSubcommand_kdfHardness _ operands).trans hstate)

end Parsing

/-! ## The memory it is chosen by -/

/-- What `sysconf` returns where it does not know. -/
def sysconfUnknown : ℤ := -1

def longModulus : ℤ := 2 ^ 63

/-- Unknown, or a positive number in a signed word. -/
def IsSysconfValue (v : ℤ) : Prop := v = sysconfUnknown ∨ 0 < v ∧ v < longModulus

section Memory

variable {P : Platform}

/-- Where both values are known the word holds no more than the product. -/
theorem availableMemory_le (h : 0 ≤ P.sysconfPhysPages * P.sysconfPageSize) :
    (availableMemory P : ℤ) ≤ P.sysconfPhysPages * P.sysconfPageSize := by
  simp only [availableMemory, sizeModulus]
  omega

theorem availableMemory_of_fits (h : 0 ≤ P.sysconfPhysPages * P.sysconfPageSize)
    (hfits : P.sysconfPhysPages * P.sysconfPageSize < longModulus) :
    (availableMemory P : ℤ) = P.sysconfPhysPages * P.sysconfPageSize := by
  have hlt : P.sysconfPhysPages * P.sysconfPageSize < (sizeModulus : ℤ) :=
    hfits.trans (by decide)
  rw [availableMemory, Int.emod_eq_of_lt h hlt, Int.toNat_of_nonneg h]

/-- A negative product of a signed word is among the largest of the unsigned ones. -/
theorem le_availableMemory_of_neg (h : P.sysconfPhysPages * P.sysconfPageSize < 0)
    (hfits : -longModulus < P.sysconfPhysPages * P.sysconfPageSize) :
    longModulus < availableMemory P := by
  have hmod : P.sysconfPhysPages * P.sysconfPageSize % (sizeModulus : ℤ) =
      P.sysconfPhysPages * P.sysconfPageSize + (sizeModulus : ℤ) := by
    rw [← Int.add_emod_right, Int.emod_eq_of_lt]
    all_goals simp only [longModulus, sizeModulus] at *; omega
  rw [availableMemory, hmod]
  simp only [longModulus, sizeModulus] at *
  omega

end Memory

/-! ## The limit in the keyfile -/

/-- The specification comes from an enrolment for which no hardness was given. -/
def MadeWithoutHardness (P : Platform) (keySpec : KeySpec) : Prop :=
  ∃ argv w i w', parseArgumentsAndGetPassphrase P argv w = .ok i w' ∧ i.subcommand = .enrol ∧
    (∀ o ∈ (P.getoptLong argv).options, o.letter ≠ 'k') ∧
    makeNewKeySpecFromInvocation P i = .ok keySpec

/-- More than the least is asked for only where twice as much is known to be there. -/
def WithinMemory (P : Platform) (keySpec : KeySpec) : Prop :=
  keySpec.memlimit > cryptoPwhashMemlimitInteractive →
    P.sysconfPhysPages ≠ sysconfUnknown ∧ P.sysconfPageSize ≠ sysconfUnknown ∧
      2 * (keySpec.memlimit.toNat : ℤ) < P.sysconfPhysPages * P.sysconfPageSize

section Limits

variable {P P' : Platform} {keySpec keySpec' : KeySpec}

/-- The three levels, with the memory that each is chosen for. -/
theorem MadeWithoutHardness.cases (h : MadeWithoutHardness P keySpec) :
    (keySpec.memlimit = cryptoPwhashMemlimitSensitive ∧
      2 * cryptoPwhashMemlimitSensitive.toNat < availableMemory P) ∨
    (keySpec.memlimit = cryptoPwhashMemlimitModerate ∧
      2 * cryptoPwhashMemlimitModerate.toNat < availableMemory P ∧
      availableMemory P ≤ 2 * cryptoPwhashMemlimitSensitive.toNat) ∨
    (keySpec.memlimit = cryptoPwhashMemlimitInteractive ∧
      availableMemory P ≤ 2 * cryptoPwhashMemlimitModerate.toNat) := by
  obtain ⟨argv, w, i, w', hparse, hsub, hk, hspec⟩ := h
  have hlevel := parseArguments_kdfHardness hk _ _ _ hparse hsub
  obtain ⟨limits, hlimits, -, hmemlimit⟩ := makeNewKeySpecFromInvocation_limits hspec
  rw [hlevel] at hlimits
  rw [hmemlimit]
  unfold automaticHardness at hlimits
  split at hlimits
  · obtain rfl := Except.ok.inj hlimits
    exact Or.inl ⟨rfl, by omega⟩
  · split at hlimits
    · obtain rfl := Except.ok.inj hlimits
      exact Or.inr (Or.inl ⟨rfl, by omega, by omega⟩)
    · obtain rfl := Except.ok.inj hlimits
      exact Or.inr (Or.inr ⟨rfl, by omega⟩)

theorem withinMemory_of_known (h : MadeWithoutHardness P keySpec)
    (hpositive : 0 ≤ P.sysconfPhysPages * P.sysconfPageSize)
    (hpages : P.sysconfPhysPages ≠ sysconfUnknown) (hsize : P.sysconfPageSize ≠ sysconfUnknown) :
    WithinMemory P keySpec := by
  have hle := availableMemory_le hpositive
  intro hmore
  refine ⟨hpages, hsize, ?_⟩
  rcases h.cases with ⟨hlimit, hmemory⟩ | ⟨hlimit, hmemory, -⟩ | ⟨hlimit, -⟩
  · rw [hlimit]
    omega
  · rw [hlimit]
    omega
  · rw [hlimit] at hmore
    exact absurd hmore (UInt64.lt_irrefl _)

/-- With one value unknown the word is huge, and the highest level is taken. -/
theorem memlimit_of_neg (h : MadeWithoutHardness P keySpec)
    (hneg : P.sysconfPhysPages * P.sysconfPageSize < 0)
    (hfits : -longModulus < P.sysconfPhysPages * P.sysconfPageSize) :
    keySpec.memlimit = cryptoPwhashMemlimitSensitive := by
  have hlt := le_availableMemory_of_neg hneg hfits
  have hmoderate : cryptoPwhashMemlimitModerate.toNat = 268435456 := rfl
  have hsensitive : cryptoPwhashMemlimitSensitive.toNat = 1073741824 := rfl
  rw [longModulus] at hlt
  rcases h.cases with ⟨hlimit, -⟩ | ⟨-, -, hmemory⟩ | ⟨-, hmemory⟩
  · exact hlimit
  · omega
  · omega

/-- With both values unknown the product is one. -/
theorem memlimit_of_unknown (h : MadeWithoutHardness P keySpec)
    (hpages : P.sysconfPhysPages = sysconfUnknown) (hsize : P.sysconfPageSize = sysconfUnknown) :
    keySpec.memlimit = cryptoPwhashMemlimitInteractive := by
  have hone : availableMemory P = 1 := by
    rw [availableMemory, hpages, hsize]
    rfl
  have hmoderate : cryptoPwhashMemlimitModerate.toNat = 268435456 := rfl
  have hsensitive : cryptoPwhashMemlimitSensitive.toNat = 1073741824 := rfl
  rcases h.cases with ⟨-, hmemory⟩ | ⟨-, hmemory, -⟩ | ⟨hlimit, -⟩
  · omega
  · omega
  · exact hlimit

/-- Both values are known, and their product is within a signed word. -/
structure Platform.KnowsMemory (P : Platform) : Prop where
  pages : 0 < P.sysconfPhysPages
  size : 0 < P.sysconfPageSize
  fits : P.sysconfPhysPages * P.sysconfPageSize < longModulus

theorem Platform.KnowsMemory.availableMemory_eq (h : P.KnowsMemory) :
    (availableMemory P : ℤ) = P.sysconfPhysPages * P.sysconfPageSize :=
  availableMemory_of_fits (Int.mul_nonneg h.pages.le h.size.le) h.fits

theorem memlimit_mono (h : MadeWithoutHardness P keySpec) (h' : MadeWithoutHardness P' keySpec')
    (hle : availableMemory P ≤ availableMemory P') : keySpec.memlimit ≤ keySpec'.memlimit := by
  have hinteractive : cryptoPwhashMemlimitInteractive.toNat = 67108864 := rfl
  have hmoderate : cryptoPwhashMemlimitModerate.toNat = 268435456 := rfl
  have hsensitive : cryptoPwhashMemlimitSensitive.toNat = 1073741824 := rfl
  apply UInt64.le_iff_toNat_le.mpr
  rcases h.cases with ⟨hlimit, hmemory⟩ | ⟨hlimit, hmemory, -⟩ | ⟨hlimit, -⟩ <;>
    rcases h'.cases with ⟨hlimit', -⟩ | ⟨hlimit', -, hmemory'⟩ | ⟨hlimit', hmemory'⟩ <;>
      rw [hlimit, hlimit'] <;> omega

/-- An enrolment that names no hardness asks for no more than the system knows itself to have,
exactly when it knows both values or neither; where it knows them and the product is within a
signed word, more memory never makes for a lower limit. -/
theorem withinMemory_iff (hpages : IsSysconfValue P.sysconfPhysPages)
    (hsize : IsSysconfValue P.sysconfPageSize) (h : MadeWithoutHardness P keySpec) :
    (WithinMemory P keySpec ↔
      (P.sysconfPhysPages = sysconfUnknown ↔ P.sysconfPageSize = sysconfUnknown)) ∧
    ∀ P' keySpec', P.KnowsMemory → P'.KnowsMemory → MadeWithoutHardness P' keySpec' →
      P.sysconfPhysPages * P.sysconfPageSize ≤ P'.sysconfPhysPages * P'.sysconfPageSize →
      keySpec.memlimit ≤ keySpec'.memlimit := by
  constructor
  · rcases hpages with hpages | ⟨hpages, hpagesFit⟩ <;> rcases hsize with hsize | ⟨hsize, hsizeFit⟩
    · have hlimit := memlimit_of_unknown h hpages hsize
      refine iff_of_true (fun hmore => ?_) (iff_of_true hpages hsize)
      rw [hlimit] at hmore
      exact absurd hmore (UInt64.lt_irrefl _)
    · have hproduct : P.sysconfPhysPages * P.sysconfPageSize = -P.sysconfPageSize := by
        rw [hpages, sysconfUnknown, Int.neg_one_mul]
      have hlimit := memlimit_of_neg h (by omega) (by omega)
      refine iff_of_false (fun hwithin => ?_) fun hiff => ?_
      · exact (hwithin (by rw [hlimit]; decide)).1 hpages
      · have := hiff.mp hpages
        rw [sysconfUnknown] at this
        omega
    · have hproduct : P.sysconfPhysPages * P.sysconfPageSize = -P.sysconfPhysPages := by
        rw [hsize, sysconfUnknown, Int.mul_neg_one]
      have hlimit := memlimit_of_neg h (by omega) (by omega)
      refine iff_of_false (fun hwithin => ?_) fun hiff => ?_
      · exact (hwithin (by rw [hlimit]; decide)).2.1 hsize
      · have := hiff.mpr hsize
        rw [sysconfUnknown] at this
        omega
    · have hknown : P.sysconfPhysPages ≠ sysconfUnknown := by
        rw [sysconfUnknown]
        omega
      have hknown' : P.sysconfPageSize ≠ sysconfUnknown := by
        rw [sysconfUnknown]
        omega
      have hpositive := (Int.mul_pos hpages hsize).le
      exact iff_of_true (withinMemory_of_known h hpositive hknown hknown')
        (iff_of_false hknown hknown')
  · intro P' keySpec' hfits hfits' h' hle
    apply memlimit_mono h h'
    rw [← hfits.availableMemory_eq, ← hfits'.availableMemory_eq] at hle
    exact Int.ofNat_le.mp hle

end Limits

def optionsWithoutHardness : List ReportedOption :=
  [⟨'d', literal "/dev/hidraw0"⟩, ⟨'f', literal "keyfile"⟩, ⟨'p', literal "correct horse"⟩]

/-- A host with the two values, on which an enrolment names no hardness. -/
def memoryHost (pages size : ℤ) : Platform :=
  { referenceHost referenceDevice with
    sysconfPhysPages := pages
    sysconfPageSize := size
    getoptLong := fun _ => ⟨optionsWithoutHardness, [literal "enrol"]⟩ }

theorem exists_madeWithoutHardness (pages size : ℤ) :
    ∃ keySpec, MadeWithoutHardness (memoryHost pages size) keySpec := by
  obtain ⟨limits, hlimits⟩ := hardnessLimits_of_mem (automaticHardness_mem (memoryHost pages size))
  have hparse : parseArgumentsAndGetPassphrase (memoryHost pages size)
      [literal "khefin", literal "enrol"] emptyWorld =
      .ok { referenceInvocation with kdfHardness := automaticHardness (memoryHost pages size) }
        emptyWorld := rfl
  have hspec : ∃ keySpec, makeNewKeySpecFromInvocation (memoryHost pages size)
      { referenceInvocation with kdfHardness := automaticHardness (memoryHost pages size) } =
        .ok keySpec := by
    unfold makeNewKeySpecFromInvocation
    rw [hlimits]
    exact ⟨_, rfl⟩
  have hk : ∀ o ∈ optionsWithoutHardness, o.letter ≠ 'k' := by decide
  obtain ⟨keySpec, hspec⟩ := hspec
  exact ⟨keySpec, _, _, _, _, hparse, rfl, hk, hspec⟩

/-- Sixteen gigabytes. -/
theorem withinMemory_iff_known : ∃ keySpec, MadeWithoutHardness (memoryHost 4194304 4096) keySpec ∧
    WithinMemory (memoryHost 4194304 4096) keySpec := by
  obtain ⟨keySpec, hmade⟩ := exists_madeWithoutHardness 4194304 4096
  refine ⟨keySpec, hmade, (withinMemory_iff (Or.inr ?_) (Or.inr ?_) hmade).1.mpr (by decide)⟩
  · decide
  · decide

/-- Where the number of pages is unknown, the limit is the highest. -/
theorem not_withinMemory_unknown :
    IsSysconfValue (memoryHost sysconfUnknown 4096).sysconfPhysPages ∧
    IsSysconfValue (memoryHost sysconfUnknown 4096).sysconfPageSize ∧
    ∃ keySpec, MadeWithoutHardness (memoryHost sysconfUnknown 4096) keySpec ∧
      keySpec.memlimit = cryptoPwhashMemlimitSensitive ∧
      ¬WithinMemory (memoryHost sysconfUnknown 4096) keySpec := by
  obtain ⟨keySpec, hmade⟩ := exists_madeWithoutHardness sysconfUnknown 4096
  have hlimit : keySpec.memlimit = cryptoPwhashMemlimitSensitive :=
    memlimit_of_neg hmade (by decide) (by decide)
  refine ⟨Or.inl rfl, Or.inr (by decide), keySpec, hmade, hlimit, fun hwithin => ?_⟩
  exact (hwithin (by rw [hlimit]; decide)).1 rfl

end Khefin
