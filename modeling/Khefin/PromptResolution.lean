import Khefin.SshAskpass

/-! # Which keyfile the prompts of ssh-agent name

The blanks behind the last colon hold no colon, so the last colon of a prompt ends its keyfile.
The confirmation matches at the end only, and the space before it may be that of the greeting. -/

namespace Khefin.SshAskpass
open CLibrary PosixRegex Shell

variable {P w : Bytes}

/-! ## The blanks at the end -/

theorem colon_notMem_of_spaces (hw : ∀ c ∈ w, isSpace c) : colon ∉ w :=
  fun h => absurd (hw colon h) (by decide)

theorem append_colon_inj {a b w' : Bytes} (hw : colon ∉ w) (hw' : colon ∉ w')
    (h : a ++ colon :: w = b ++ colon :: w') : a = b ∧ w = w' := by
  rcases List.append_eq_append_iff.mp h with ⟨x, rfl, hx⟩ | ⟨x, rfl, hx⟩
  all_goals
    cases x with
    | nil => simpa [eq_comm] using hx
    | cons c x =>
      rw [List.cons_append, List.cons.injEq] at hx
      simp [hx.2] at hw hw'

/-! ## What the two patterns match -/

theorem exactly_confirmationPattern (hw : ∀ c ∈ w, isSpace c) :
    exactly confirmationPattern (confirmation ++ colon :: w) [] = some [(1, colon :: w)] := by
  rw [confirmationPattern, exactly_literally, exactly_cat_lineEnd, exactly,
    exactly_literally_singleton, exactly_star_symbol, if_pos (by simpa using hw)]
  rfl

theorem of_exactly_confirmationPattern {v : Bytes}
    (h : exactly confirmationPattern v [] ≠ none) :
    ∃ w, (∀ c ∈ w, isSpace c) ∧ v = confirmation ++ colon :: w := by
  by_cases hstarts : confirmation <+: v
  · obtain ⟨u, rfl⟩ := hstarts
    rw [confirmationPattern, exactly_literally, exactly_cat_lineEnd, exactly] at h
    by_cases hcolon : [colon] <+: u
    · obtain ⟨w, rfl⟩ := hcolon
      rw [exactly_literally, exactly_star_symbol] at h
      by_cases hw : w.all isSpace
      · exact ⟨w, by simpa using hw, rfl⟩
      · exact absurd (by simp [hw]) h
    · exact absurd (by rw [exactly_literally_eq_none hcolon]; rfl) h
  · exact absurd (exactly_literally_eq_none hstarts) h

theorem anchored_confirmationPattern : Anchored confirmationPattern :=
  (anchored_lineEnd.cat _).literally _

theorem anchored_passphrasePattern : Anchored passphrasePattern :=
  (((anchored_lineEnd.cat _).literally _).cat _).literally _

/-- The group is as long as the colon behind it allows. -/
theorem exactly_passphrasePattern (hP : P ≠ []) (hw : colon ∉ w) :
    exactly passphrasePattern (enterPassphraseFor ++ (P ++ colon :: w)) [] = some [(1, P)] := by
  rw [passphrasePattern, exactly_literally, exactly]
  apply countDown_eq_some (k := P.length) (by simp)
  · rw [List.take_left, List.drop_left, exactly, exactly_plus_any hP,
      exactly_literally_singleton, exactly_cat_lineEnd, Regex.any, exactly_star_symbol,
      if_pos (by simp)]
    rfl
  · intro j hj hjlength
    have hrest : ¬ [colon] <+: (P ++ colon :: w).drop j := by
      intro h
      obtain ⟨i, rfl⟩ := Nat.exists_eq_add_of_lt hj
      rw [Nat.add_assoc, List.drop_length_add_append, List.drop_succ_cons] at h
      exact hw (List.mem_of_mem_drop (h.subset (List.mem_singleton_self colon)))
    rw [exactly_literally_eq_none hrest]
    cases exactly (.group 1 (.plus .any)) ((P ++ colon :: w).take j)
      ((P ++ colon :: w).drop j ++ []) <;> rfl

/-! ## The prompts, line by line -/

def plainPrompt (keyfile blanks : Bytes) : Bytes := enterPassphraseFor ++ (keyfile ++ colon :: blanks)

def confirmingPrompt (keyfile blanks : Bytes) : Bytes :=
  plainPrompt (keyfile ++ confirmation) blanks

/-- The greeting and a keyfile end in the confirmation together only where the keyfile does,
or is the confirmation up to the space of the greeting. -/
theorem suffix_of_confirmation_suffix {x : Bytes} (h : x ++ confirmation = enterPassphraseFor ++ P) :
    confirmation <:+ P ∨ P = confirmation.tail := by
  rcases List.append_eq_append_iff.mp h with ⟨a, hgreeting, hP⟩ | ⟨a, rfl, rfl⟩
  · have hshort : a.length ≤ enterPassphraseFor.length := by rw [hgreeting]; simp
    have ha : a = confirmation.take a.length := by rw [hP, List.take_left]
    have hshared : ∀ n ≤ enterPassphraseFor.length,
        confirmation.take n <:+ enterPassphraseFor → n ≤ 1 := by decide
    have hone := hshared a.length hshort (ha ▸ ⟨x, hgreeting.symm⟩)
    have hrest : P = confirmation.drop a.length := by rw [hP, List.drop_left]
    rcases Nat.le_one_iff_eq_zero_or_eq_one.mp hone with hlength | hlength
    · rw [hrest, hlength]
      exact .inl (List.suffix_refl _)
    · rw [hrest, hlength]
      exact .inr rfl
  · exact .inl (List.suffix_append a confirmation)

/-- The confirmation matches in one place at most, before the last colon. -/
theorem confirmation_of_match {before v : Bytes} (hw : ∀ c ∈ w, isSpace c) (hv : v <:+ before ++ colon :: w)
    (hmatch : exactly confirmationPattern v [] ≠ none) :
    confirmation <:+ before ∧ v = confirmation ++ colon :: w := by
  obtain ⟨w', hw', rfl⟩ := of_exactly_confirmationPattern hmatch
  obtain ⟨x, hx⟩ := hv
  rw [← List.append_assoc] at hx
  have hend := append_colon_inj (colon_notMem_of_spaces hw') (colon_notMem_of_spaces hw) hx
  exact ⟨⟨x, hend.1⟩, by rw [hend.2]⟩

theorem keepGroup_confirmation_plain (hw : ∀ c ∈ w, isSpace c) (hconfirm : ¬ confirmation <:+ P)
    (hP : P ≠ confirmation.tail) :
    keepGroup confirmationPattern (plainPrompt P w) = plainPrompt P w := by
  apply anchored_confirmationPattern.substitute_of_none
  intro v hv
  by_contra hmatch
  rw [plainPrompt, ← List.append_assoc] at hv
  obtain ⟨x, hx⟩ := (confirmation_of_match hw hv hmatch).1
  exact (suffix_of_confirmation_suffix hx).elim hconfirm hP

/-- The confirmation at the end goes, with whatever space is before it. -/
theorem keepGroup_confirmation (before : Bytes) (hw : ∀ c ∈ w, isSpace c) :
    keepGroup confirmationPattern (before ++ (confirmation ++ colon :: w)) = before ++ colon :: w := by
  apply anchored_confirmationPattern.substitute_of_suffix before (exactly_confirmationPattern hw)
  intro v hv hlonger
  by_contra hmatch
  rw [← List.append_assoc] at hv
  rw [(confirmation_of_match hw hv hmatch).2] at hlonger
  exact Nat.lt_irrefl _ hlonger

theorem keepGroup_passphrase (hP : P ≠ []) (hw : ∀ c ∈ w, isSpace c) :
    keepGroup passphrasePattern (plainPrompt P w) = P := by
  have hmatch := exactly_passphrasePattern hP (colon_notMem_of_spaces hw)
  exact anchored_passphrasePattern.substitute_of_suffix [] hmatch
    fun v hv hlonger => absurd hv.length_le (Nat.not_le.mpr hlonger)

theorem resolveLine_plain (hP : P ≠ []) (hw : ∀ c ∈ w, isSpace c) (hconfirm : ¬ confirmation <:+ P)
    (hne : P ≠ confirmation.tail) : resolveLine (plainPrompt P w) = P := by
  rw [resolveLine, keepGroup_confirmation_plain hw hconfirm hne, keepGroup_passphrase hP hw]

theorem resolveLine_confirming (hP : P ≠ []) (hw : ∀ c ∈ w, isSpace c) :
    resolveLine (confirmingPrompt P w) = P := by
  have hsplit : confirmingPrompt P w = (enterPassphraseFor ++ P) ++ (confirmation ++ colon :: w) := by
    simp [confirmingPrompt, plainPrompt]
  rw [resolveLine, hsplit, keepGroup_confirmation _ hw, List.append_assoc]
  exact keepGroup_passphrase hP hw

/-! ## Runs of the script -/

theorem newline_notMem_plainPrompt (hline : newline ∉ P) (hw : ∀ c ∈ w, c = 0x20) :
    newline ∉ plainPrompt P w := by
  have hgreeting : newline ∉ enterPassphraseFor := by decide
  have hblanks : newline ∉ w := fun h => absurd (hw newline h) (by decide)
  have hcolon : newline ≠ colon := by decide
  simp [plainPrompt, hgreeting, hline, hblanks, hcolon]

theorem keyfileOfPrompt_of_single {prompt : Bytes} (hprompt : newline ∉ prompt)
    (hline : newline ∉ P) (h : resolveLine prompt = P) : keyfileOfPrompt prompt = P := by
  rw [keyfileOfPrompt, lines_of_single hprompt, List.map_singleton, h, substituted_single hline]

theorem allowsUse_plainPrompt (h : newline ∉ plainPrompt P w) :
    allowsUse (plainPrompt P w) = false := by
  rw [allowsUse, lines_of_single h]
  rfl

theorem generateFor_eq_ok {host : Host} {toStderr : Bool} {title f2hsKeyfile keyfile : Bytes}
    {generated : Generation}
    (h : generateFor host toStderr title f2hsKeyfile keyfile = .ok generated) :
    ∃ fingerprint, getFingerprintForKeyfile host keyfile = .ok fingerprint ∧
      generated = ⟨generateCommand f2hsKeyfile fingerprint, true⟩ := by
  unfold generateFor at h
  cases hfingerprint : getFingerprintForKeyfile host keyfile with
  | error e =>
    rw [hfingerprint] at h
    cases h
  | ok fingerprint =>
    rw [hfingerprint] at h
    simp only [bind, Except.bind] at h
    split at h
    · cases h
    · cases h
      exact ⟨fingerprint, rfl, rfl⟩

/-- The notification command that is set does its work. -/
def Host.Notifies (host : Host) : Prop :=
  ∀ title message, host.notifyStatus host.notifyCommand title message = 0

/-- The prompt has the script do what `get-passphrase` does for `keyfile`. -/
structure AsksFor (prompt keyfile : Bytes) : Prop where
  keyfile_eq : keyfileOfPrompt prompt = keyfile
  command_eq : ∀ host name generated expected, askpass host name [prompt] = .ok generated →
    askpass host name [getPassphrase, keyfile] = .ok expected → generated = expected
  run_eq : ∀ host name, host.Notifies →
    askpass host name [prompt] = askpass host name [getPassphrase, keyfile]

theorem Host.Notifies.generateFor_eq {host : Host} (h : host.Notifies) (toStderr : Bool)
    (title f2hsKeyfile keyfile : Bytes) :
    generateFor host toStderr title f2hsKeyfile keyfile =
      (getFingerprintForKeyfile host keyfile).map fun fingerprint =>
        ⟨generateCommand f2hsKeyfile fingerprint, true⟩ := by
  unfold generateFor
  cases getFingerprintForKeyfile host keyfile with
  | error e => rfl
  | ok fingerprint =>
    simp only [bind, Except.bind, notify, h title, or_true, if_true]
    rfl

theorem asksFor_of_keyfileOfPrompt {prompt keyfile : Bytes} (hne : prompt ≠ [])
    (hcommand : prompt ≠ getPassphrase) (hallows : allowsUse prompt = false)
    (hkeyfile : keyfile ≠ []) (h : keyfileOfPrompt prompt = keyfile) : AsksFor prompt keyfile := by
  have hpassphrase : getPassphrase ≠ [] := by decide
  refine ⟨h, fun host name generated expected hgenerated hexpected => ?_, fun host name hnotifies => ?_⟩
  · simp only [askpass, answer, List.getD_cons_zero, List.getD_cons_succ, hne, hcommand, hallows,
      hpassphrase, hkeyfile, h, if_false, if_true, and_false, Bool.false_eq_true, false_and]
      at hgenerated hexpected
    split_ifs at hgenerated hexpected
    obtain ⟨fingerprint, hfingerprint, rfl⟩ := generateFor_eq_ok hgenerated
    obtain ⟨fingerprint', hfingerprint', rfl⟩ := generateFor_eq_ok hexpected
    rw [hfingerprint] at hfingerprint'
    cases hfingerprint'
    rfl
  · simp only [askpass, answer, List.getD_cons_zero, List.getD_cons_succ, hne, hcommand, hallows,
      hpassphrase, hkeyfile, h, if_false, if_true, and_false, Bool.false_eq_true, false_and,
      hnotifies.generateFor_eq]

theorem plainPrompt_ne_nil : plainPrompt P w ≠ [] := List.append_ne_nil_of_left_ne_nil (by decide) _

theorem plainPrompt_ne_getPassphrase : plainPrompt P w ≠ getPassphrase := by
  intro h
  have hgreeting : (plainPrompt P w).head? = enterPassphraseFor.head? := rfl
  rw [h] at hgreeting
  exact absurd hgreeting (by decide)

theorem asksFor_plainPrompt {keyfile : Bytes} (hline : newline ∉ P) (hkeyfile : newline ∉ keyfile)
    (hne : keyfile ≠ []) (hw : ∀ c ∈ w, c = 0x20) (h : resolveLine (plainPrompt P w) = keyfile) :
    AsksFor (plainPrompt P w) keyfile := by
  have hprompt := newline_notMem_plainPrompt hline hw
  exact asksFor_of_keyfileOfPrompt plainPrompt_ne_nil plainPrompt_ne_getPassphrase
    (allowsUse_plainPrompt hprompt) hne (keyfileOfPrompt_of_single hprompt hkeyfile h)

theorem keepGroup_passphrase_of_short {line : Bytes}
    (hlength : line.length ≤ enterPassphraseFor.length) (hne : line ≠ enterPassphraseFor) :
    keepGroup passphrasePattern line = line := by
  apply anchored_passphrasePattern.substitute_of_none
  intro v hv
  apply exactly_literally_eq_none
  intro hstarts
  have hwhole := hv.eq_of_length (Nat.le_antisymm hv.length_le (hlength.trans hstarts.length_le))
  subst hwhole
  exact hne (hstarts.eq_of_length (Nat.le_antisymm hstarts.length_le hlength)).symm

/-- The space that goes with the confirmation is that of the greeting, which then is none. -/
theorem keyfileOfPrompt_confirmation :
    keyfileOfPrompt (plainPrompt (text "(will confirm each use)") []) =
      text "Enter passphrase for:" := by
  have hsplit : plainPrompt (text "(will confirm each use)") [] =
      text "Enter passphrase for" ++ (confirmation ++ [colon]) := by decide
  apply keyfileOfPrompt_of_single (by decide) (by decide)
  rw [resolveLine, hsplit, keepGroup_confirmation _ (by simp)]
  exact keepGroup_passphrase_of_short (by decide) (by decide)

theorem not_asksFor_confirmation :
    ¬ AsksFor (plainPrompt (text "(will confirm each use)") []) (text "(will confirm each use)") := by
  intro h
  have hkeyfile := h.keyfile_eq
  rw [keyfileOfPrompt_confirmation] at hkeyfile
  exact absurd hkeyfile (by decide)

theorem isSpace_of_eq (hw : ∀ c ∈ w, c = 0x20) : ∀ c ∈ w, isSpace c := by
  intro c hc
  rw [hw c hc]
  rfl

/-- Both prompts name their keyfile, unless it is the confirmation itself, without its space. -/
theorem prompts_askFor_iff (hne : P ≠ []) (hline : newline ∉ P) (hconfirm : ¬ confirmation <:+ P) :
    (∀ w : Bytes, (∀ c ∈ w, c = 0x20) →
      AsksFor (plainPrompt P w) P ∧ AsksFor (confirmingPrompt P w) P) ↔
    P ≠ text "(will confirm each use)" := by
  constructor
  · rintro h rfl
    exact not_asksFor_confirmation (h [] (by simp)).1
  · intro hP w hw
    have hspaces := isSpace_of_eq hw
    have hconfirming : newline ∉ P ++ confirmation := by
      simpa [hline] using (by decide : newline ∉ confirmation)
    exact ⟨asksFor_plainPrompt hline hline hne hw (resolveLine_plain hne hspaces hconfirm hP),
      asksFor_plainPrompt hconfirming hline hne hw (resolveLine_confirming hne hspaces)⟩

theorem prompts_askFor_iff_id_ed25519 :
    (∀ w : Bytes, (∀ c ∈ w, c = 0x20) →
      AsksFor (plainPrompt (text "id_ed25519") w) (text "id_ed25519") ∧
        AsksFor (confirmingPrompt (text "id_ed25519") w) (text "id_ed25519")) ↔
    text "id_ed25519" ≠ text "(will confirm each use)" :=
  prompts_askFor_iff (by decide) (by decide) (by decide)

/-- The plain prompt for a key in a file called `(will confirm each use)`. -/
theorem not_prompts_askFor :
    ¬ ∀ P : Bytes, P ≠ [] → newline ∉ P → ¬ confirmation <:+ P → ∀ w : Bytes, (∀ c ∈ w, c = 0x20) →
      AsksFor (plainPrompt P w) P ∧ AsksFor (confirmingPrompt P w) P := by
  intro h
  have hprompts := h (text "(will confirm each use)") (by decide) (by decide) (by decide) [] (by simp)
  exact not_asksFor_confirmation hprompts.1

end Khefin.SshAskpass
