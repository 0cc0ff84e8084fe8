import Khefin.CborRoundTrip

/-! # Bytes that follow an item

What has been read from some bytes is read in the same way where more bytes follow. So there is
nothing to be read from a proper prefix of an encoded item. -/

namespace Cbor

/-- What `read` takes from some bytes, `read'` takes from all longer ones. -/
def Continues {α : Type} (read read' : Bytes → Option (α × Bytes)) : Prop :=
  ∀ s a r, read s = some (a, r) → ∀ t, read' (s ++ t) = some (a, r ++ t)

theorem continues_takeBytes (n : ℕ) : Continues (takeBytes n) (takeBytes n) := by
  intro s d r h t
  obtain ⟨hd, rfl⟩ := takeBytes_spec h
  rw [List.append_assoc, takeBytes_append hd]

theorem readArgument_continues {info : ℕ} {s r : Bytes} {w : Width} {n : ℕ}
    (h : readArgument info s = some (w, n, r)) (t : Bytes) :
    readArgument info (s ++ t) = some (w, n, r ++ t) := by
  unfold readArgument at h ⊢
  split at h
  · next hinfo =>
    obtain ⟨rfl, rfl, rfl⟩ : Width.w8 = w ∧ info = n ∧ s = r := by simpa using h
    rw [if_pos hinfo]
  · next hinfo =>
    simp only [Option.bind_eq_some_iff, Option.map_eq_some_iff, Prod.mk.injEq, Prod.exists] at h
    obtain ⟨w', hw, d, r', htake, rfl, rfl, rfl⟩ := h
    rw [if_neg hinfo, hw, Option.bind_some, continues_takeBytes _ _ _ _ htake t]
    rfl

theorem continues_readString (major : ℕ) : Continues (readString major) (readString major) := by
  intro s d r h t
  cases s with
  | nil => cases h
  | cons b s =>
    rw [List.cons_append]
    simp only [readString] at h ⊢
    split at h
    · next hmajor =>
      simp only [Option.bind_eq_some_iff, Prod.exists] at h
      obtain ⟨w, n, s', hargument, htake⟩ := h
      rw [if_pos hmajor, readArgument_continues hargument t, Option.bind_some]
      exact continues_takeBytes _ _ _ _ htake t
    · cases h

section Repetition

variable {α : Type} {read read' : Bytes → Option (α × Bytes)} (hread : Continues read read')
include hread

theorem continues_readTimes (n : ℕ) : Continues (readTimes read n) (readTimes read' n) := by
  induction n with
  | zero =>
    intro s xs r h t
    obtain ⟨rfl, rfl⟩ : [] = xs ∧ s = r := by simpa [readTimes] using h
    rfl
  | succ n ih =>
    intro s xs r h t
    simp only [readTimes, Option.bind_eq_some_iff, Option.map_eq_some_iff, Prod.exists,
      Prod.mk.injEq] at h
    obtain ⟨a, s', ha, xs', r', hrest, rfl, rfl⟩ := h
    rw [readTimes, hread _ _ _ ha t, Option.bind_some, ih _ _ _ hrest t]
    rfl

theorem continues_readUntilBreak {n n' : ℕ} (hn : n ≤ n') :
    Continues (readUntilBreak read n) (readUntilBreak read' n') := by
  induction n generalizing n' with
  | zero =>
    intro s xs r h
    cases h
  | succ n ih =>
    intro s xs r h t
    obtain ⟨n', rfl⟩ := Nat.exists_eq_succ_of_ne_zero (show n' ≠ 0 by omega)
    cases s with
    | nil => cases h
    | cons b s =>
      rw [List.cons_append]
      simp only [readUntilBreak] at h ⊢
      split at h
      · next hbreak =>
        obtain ⟨rfl, rfl⟩ : [] = xs ∧ s = r := by simpa using h
        rw [if_pos hbreak]
      · next hbreak =>
        simp only [Option.bind_eq_some_iff, Option.map_eq_some_iff, Prod.exists,
          Prod.mk.injEq] at h
        obtain ⟨a, s', ha, xs', r', hrest, rfl, rfl⟩ := h
        have hfirst := hread _ _ _ ha t
        rw [List.cons_append] at hfirst
        rw [if_neg hbreak, hfirst, Option.bind_some, ih (by omega) _ _ _ hrest t]
        rfl

end Repetition

theorem continues_readSimple (info : ℕ) : Continues (readSimple info) (readSimple info) := by
  intro s i r h t
  unfold readSimple at h ⊢
  split at h
  · next hinfo =>
    obtain ⟨rfl, rfl⟩ : Item.simple info = i ∧ s = r := by simpa using h
    rw [if_pos hinfo]
  · next hinfo =>
    simp only [Option.bind_eq_some_iff, Prod.exists] at h
    obtain ⟨w, n, s', hargument, h⟩ := h
    rw [if_neg hinfo, readArgument_continues hargument t, Option.bind_some]
    dsimp only
    split_ifs at h ⊢
    all_goals
      obtain ⟨rfl, rfl⟩ := Prod.mk.inj (Option.some.inj h)
      rfl

/-- A string in chunks, or a string of announced length. -/
private theorem continues_chunks (major : ℕ) (chunked : List Bytes → Item) (plain : Bytes → Item)
    (b : UInt8) (s : Bytes) (i : Item) (r : Bytes)
    (h : (if b.toNat % 32 = 31 then
        (readUntilBreak (readString major) s.length s).map fun p => (chunked p.1, p.2)
      else (readString major (b :: s)).map fun p => (plain p.1, p.2)) = some (i, r)) (t : Bytes) :
    (if b.toNat % 32 = 31 then
        (readUntilBreak (readString major) (s ++ t).length (s ++ t)).map fun p => (chunked p.1, p.2)
      else (readString major (b :: (s ++ t))).map fun p => (plain p.1, p.2)) = some (i, r ++ t) := by
  have hbytes : s.length ≤ (s ++ t).length := by simp
  split at h
  · next hinfo =>
    simp only [Option.map_eq_some_iff, Prod.exists, Prod.mk.injEq] at h
    obtain ⟨cs, r, hchunks, rfl, rfl⟩ := h
    rw [if_pos hinfo,
      continues_readUntilBreak (continues_readString major) hbytes _ _ _ hchunks t, Option.map_some]
  · next hinfo =>
    simp only [Option.map_eq_some_iff, Prod.exists, Prod.mk.injEq] at h
    obtain ⟨d, r, hstring, rfl, rfl⟩ := h
    rw [if_neg hinfo, ← List.cons_append, continues_readString major _ _ _ hstring t,
      Option.map_some]

/-- The cases are those of the first byte; the items inside are read less deep. -/
theorem continues_decodeItem {depth depth' : ℕ} (hdepth : depth ≤ depth') :
    Continues (decodeItem depth) (decodeItem depth') := by
  induction depth generalizing depth' with
  | zero =>
    intro s i r h
    simp [decodeItem] at h
  | succ depth ih =>
    obtain ⟨depth', rfl⟩ := Nat.exists_eq_succ_of_ne_zero (show depth' ≠ 0 by omega)
    have hread := ih (Nat.le_of_succ_le_succ hdepth)
    intro s i r h t
    cases s with
    | nil => simp [decodeItem] at h
    | cons b s =>
      have hbytes : s.length ≤ (s ++ t).length := by simp
      rw [List.cons_append]
      simp only [decodeItem] at h ⊢
      -- both readers look at the same first byte, so this settles it for the goal as well
      split at h
      · simp only [Option.map_eq_some_iff, Prod.exists, Prod.mk.injEq] at h
        obtain ⟨w, n, r, hargument, rfl, rfl⟩ := h
        simp only [readArgument_continues hargument t, Option.map_some]
      · simp only [Option.map_eq_some_iff, Prod.exists, Prod.mk.injEq] at h
        obtain ⟨w, n, r, hargument, rfl, rfl⟩ := h
        simp only [readArgument_continues hargument t, Option.map_some]
      · exact continues_chunks 2 Item.byteChunks Item.bytes b s i r h t
      · exact continues_chunks 3 Item.textChunks Item.text b s i r h t
      · split at h
        · next hinfo =>
          simp only [Option.map_eq_some_iff, Prod.exists, Prod.mk.injEq] at h
          obtain ⟨is, r, hitems, rfl, rfl⟩ := h
          rw [if_pos hinfo, continues_readUntilBreak hread hbytes _ _ _ hitems t, Option.map_some]
        · next hinfo =>
          simp only [Option.bind_eq_some_iff, Option.map_eq_some_iff, Prod.exists,
            Prod.mk.injEq] at h
          obtain ⟨w, n, s', hargument, is, r, hitems, rfl, rfl⟩ := h
          rw [if_neg hinfo, readArgument_continues hargument t, Option.bind_some,
            continues_readTimes hread _ _ _ _ hitems t, Option.map_some]
      · split at h
        · next hinfo =>
          simp only [Option.bind_eq_some_iff, Prod.exists] at h
          obtain ⟨entries, r', hitems, h⟩ := h
          rw [if_pos hinfo, continues_readUntilBreak hread hbytes _ _ _ hitems t, Option.bind_some]
          split at h
          · next heven =>
            obtain ⟨rfl, rfl⟩ := Prod.mk.inj (Option.some.inj h)
            exact if_pos heven
          · cases h
        · next hinfo =>
          simp only [Option.bind_eq_some_iff, Option.map_eq_some_iff, Prod.exists,
            Prod.mk.injEq] at h
          obtain ⟨w, n, s', hargument, is, r, hitems, rfl, rfl⟩ := h
          rw [if_neg hinfo, readArgument_continues hargument t, Option.bind_some,
            continues_readTimes hread _ _ _ _ hitems t, Option.map_some]
      · simp only [Option.bind_eq_some_iff, Option.map_eq_some_iff, Prod.exists,
          Prod.mk.injEq] at h
        obtain ⟨w, n, s', hargument, content, r, hcontent, rfl, rfl⟩ := h
        rw [readArgument_continues hargument t, Option.bind_some, hread _ _ _ hcontent t,
          Option.map_some]
      · exact continues_readSimple _ _ _ _ h t

theorem continues_decode : Continues decode decode := by
  intro s i r h t
  exact continues_decodeItem (by simp) _ _ _ h t

/-- Nothing can be read from an item that is cut off. -/
theorem decode_of_prefix {i : Item} (hi : i.Encodable) {s : Bytes} (hs : s <+: encode i)
    (h : decode s ≠ none) : s = encode i := by
  obtain ⟨t, ht⟩ := hs
  obtain ⟨⟨j, r⟩, hread⟩ := Option.ne_none_iff_exists'.mp h
  have hlonger := continues_decode s j r hread t
  have hwhole := decode_encode hi []
  rw [List.append_nil, ← ht, hlonger] at hwhole
  obtain ⟨-, hrest⟩ := Prod.mk.inj (Option.some.inj hwhole)
  obtain rfl := (List.append_eq_nil_iff.mp hrest).2
  rw [← ht, List.append_nil]

end Cbor
